import Mathlib
import Kubernetes.Foundations.GoStd

/-!
# The NoExecute taint manager

`pkg/controller/nodelifecycle/scheduler/taint_manager.go` and `timed_workers.go`. For each pod on
a node with `NoExecute` taints, `processPodOnNode` schedules the pod's deletion in a timed worker
queue: at once when a taint is not tolerated, never when every taint is tolerated forever, and
otherwise after the shortest `TolerationSeconds` of the tolerations `GetMatchingTolerations`
selects. A worker already in the queue is kept when its creation time plus the new toleration is
before now plus the new toleration, that is whenever it was created before now.

* `processPodOnNode_not_tolerated`, `processPodOnNode_tolerated_forever`: the first two outcomes.
* `handleNodeUpdate_settles`: a node update cancels the work of every pod of an untainted node,
  and settles each pod whose tolerations decide the outcome alone.
* `runUpdates_period_deadline`: over every run of updates after a worker's creation, the work
  stays due when it was due, until it is cancelled or replaced by one created later; a change of
  `TolerationSeconds` does not move it.
* `handlePodUpdate_keeps_stale_deadline`: hence a pod whose toleration is raised is still deleted
  at the old time.

Times and durations are counted in nanoseconds, as `time.Duration` counts them, and a Go
`int64` conversion wraps as `Go.toInt64` does. The queue keeps, per pod, what `workers` maps its
key to: nothing, `nil` for work that fired or fires at once, or a worker whose timer runs. The
worker's completion and the events the manager emits are left out.
-/

namespace Kubernetes.NodeLifecycle

/-- `TaintEffect`. -/
inductive TaintEffect where
  | noSchedule
  | preferNoSchedule
  | noExecute
  deriving DecidableEq, Repr

/-- `Taint`. -/
structure Taint where
  key : String
  value : String
  effect : TaintEffect
  deriving DecidableEq, Repr

/-- `TolerationOperator`: `unset` is the empty operator, which `ToleratesTaint` reads as `Equal`,
and `other` an operator it does not know. -/
inductive TolerationOperator where
  | unset
  | opEqual
  | opExists
  | other
  deriving DecidableEq, Repr

/-- `Toleration`. An empty effect (`none`) matches every effect and an empty key every key;
`tolerationSeconds` is `none` for a toleration that holds forever. -/
structure Toleration where
  key : String
  operator : TolerationOperator
  value : String
  effect : Option TaintEffect
  tolerationSeconds : Option ℤ
  deriving DecidableEq, Repr

/-- `(*Toleration).ToleratesTaint`. -/
def Toleration.toleratesTaint (t : Toleration) (taint : Taint) : Bool :=
  if t.effect.isSome && t.effect != some taint.effect then false
  else if !t.key.isEmpty && t.key != taint.key then false
  else
    match t.operator with
    | .unset | .opEqual => t.value == taint.value
    | .opExists => true
    | .other => false

/-- `getNoExecuteTaints`. -/
def getNoExecuteTaints (taints : List Taint) : List Taint :=
  taints.filter (·.effect == .noExecute)

/-- `v1helper.GetMatchingTolerations`: for each taint in turn the first toleration that tolerates
it, or `false` at the first taint that none tolerates. -/
def getMatchingTolerations (taints : List Taint) (tolerations : List Toleration) :
    Bool × List Toleration :=
  if taints.isEmpty then (true, [])
  else if tolerations.isEmpty then (false, [])
  else
    match taints.mapM fun taint => tolerations.find? (·.toleratesTaint taint) with
    | some result => (true, result)
    | none => (false, [])

/-- `time.Second`, in nanoseconds. -/
def second : ℤ := 1000000000

/-- `math.MaxInt64`. -/
def maxInt64 : ℤ := 2 ^ 63 - 1

/-- One iteration of `getMinTolerationTime`'s loop; `none` is its `return 0` at a
`TolerationSeconds` of at most zero. -/
def minTolerationStep (minTolerationTime : ℤ) (toleration : Toleration) : Option ℤ :=
  match toleration.tolerationSeconds with
  | none => some minTolerationTime
  | some tolerationSeconds =>
    if tolerationSeconds ≤ 0 then none
    else if tolerationSeconds < minTolerationTime then some tolerationSeconds
    else some minTolerationTime

/-- `getMinTolerationTime`: the shortest toleration as a `time.Duration`, or `-1` for forever. -/
def getMinTolerationTime (tolerations : List Toleration) : ℤ :=
  if tolerations.isEmpty then 0
  else
    match tolerations.foldlM minTolerationStep maxInt64 with
    | none => 0
    | some minTolerationTime =>
      if minTolerationTime = maxInt64 then -1 else Go.toInt64 (minTolerationTime * second)

/-- `types.NamespacedName`, the key of a pod's work. -/
structure NamespacedName where
  ns : String
  name : String
  deriving DecidableEq, Repr

/-- `TimedWorker`. `createWorker` builds one only for a positive delay, so its timer is still to
fire when it is built. -/
structure TimedWorker where
  createdAt : ℤ
  fireAt : ℤ
  delay_pos : createdAt < fireAt
  deriving DecidableEq

/-- `createWorker`: `nil` for work due at once, whose function it starts right away. -/
def createWorker (createdAt fireAt : ℤ) : Option TimedWorker :=
  if h : fireAt - createdAt ≤ 0 then none else some ⟨createdAt, fireAt, by omega⟩

/-- `TimedWorkerQueue`, by its map `workers`. -/
structure TimedWorkerQueue where
  workers : NamespacedName → Option (Option TimedWorker)

namespace TimedWorkerQueue

/-- `AddWork`: a key the map holds, even with `nil`, is skipped. -/
def addWork (q : TimedWorkerQueue) (key : NamespacedName) (createdAt fireAt : ℤ) :
    TimedWorkerQueue :=
  if (q.workers key).isSome then q
  else ⟨Function.update q.workers key (some (createWorker createdAt fireAt))⟩

/-- `CancelWork`, which deletes the key (stopping its timer). -/
def cancelWork (q : TimedWorkerQueue) (key : NamespacedName) : TimedWorkerQueue :=
  ⟨Function.update q.workers key none⟩

/-- `GetWorkerUnsafe`: `nil` both for a missing key and for a key mapped to `nil`. -/
def getWorkerUnsafe (q : TimedWorkerQueue) (key : NamespacedName) : Option TimedWorker :=
  (q.workers key).join

end TimedWorkerQueue

/-- `processPodOnNode`, on the queue it changes. -/
def processPodOnNode (q : TimedWorkerQueue) (podNamespacedName : NamespacedName)
    (tolerations : List Toleration) (taints : List Taint) (now : ℤ) : TimedWorkerQueue :=
  let q := if taints.isEmpty then q.cancelWork podNamespacedName else q
  let matching := getMatchingTolerations taints tolerations
  if !matching.1 then
    (q.cancelWork podNamespacedName).addWork podNamespacedName now now
  else
    let minTolerationTime := getMinTolerationTime matching.2
    if minTolerationTime < 0 then q.cancelWork podNamespacedName
    else
      let triggerTime := now + minTolerationTime
      match q.getWorkerUnsafe podNamespacedName with
      | some scheduledEviction =>
        if scheduledEviction.createdAt + minTolerationTime < triggerTime then q
        else
          (q.cancelWork podNamespacedName).addWork podNamespacedName scheduledEviction.createdAt
            triggerTime
      | none => q.addWork podNamespacedName now triggerTime

/-- A pod, by the fields the manager reads. -/
structure Pod where
  ns : String
  name : String
  nodeName : String
  tolerations : List Toleration
  deriving DecidableEq, Repr

/-- The key of a pod's work. -/
def Pod.namespacedName (pod : Pod) : NamespacedName := ⟨pod.ns, pod.name⟩

/-- A node, by the fields the manager reads. -/
structure Node where
  name : String
  taints : List Taint
  deriving DecidableEq, Repr

/-- The error of a `GetPodFunc` or `GetNodeFunc`: `NotFound`, or another. -/
inductive GetError where
  | notFound
  | other
  deriving DecidableEq, Repr

/-- `podUpdateItem`. -/
structure PodUpdateItem where
  podName : String
  podNamespace : String
  nodeName : String
  deriving DecidableEq, Repr

/-- `NoExecuteTaintManager`, by the state its handlers change. -/
structure NoExecuteTaintManager where
  taintEvictionQueue : TimedWorkerQueue
  taintedNodes : String → Option (List Taint)

/-- `handlePodUpdate`, with `getPod` the result of `tc.getPod` on the item's pod. -/
def handlePodUpdate (tc : NoExecuteTaintManager) (podUpdate : PodUpdateItem)
    (getPod : Except GetError Pod) (now : ℤ) : NoExecuteTaintManager :=
  match getPod with
  | .error .notFound =>
    { tc with
      taintEvictionQueue :=
        tc.taintEvictionQueue.cancelWork ⟨podUpdate.podNamespace, podUpdate.podName⟩ }
  | .error .other => tc
  | .ok pod =>
    if pod.nodeName ≠ podUpdate.nodeName then tc
    else if pod.nodeName = "" then tc
    else
      match tc.taintedNodes pod.nodeName with
      | none => tc
      | some taints =>
        { tc with
          taintEvictionQueue :=
            processPodOnNode tc.taintEvictionQueue pod.namespacedName pod.tolerations taints now }

/-- `handleNodeUpdate`, with `getNode` the result of `tc.getNode` on the item's node. -/
def handleNodeUpdate (tc : NoExecuteTaintManager) (nodeName : String)
    (getNode : Except GetError Node) (getPodsAssignedToNode : String → Except String (List Pod))
    (now : ℤ) : NoExecuteTaintManager :=
  match getNode with
  | .error .notFound => { tc with taintedNodes := Function.update tc.taintedNodes nodeName none }
  | .error .other => tc
  | .ok node =>
    let taints := getNoExecuteTaints node.taints
    let tc := { tc with
      taintedNodes :=
        Function.update tc.taintedNodes node.name (if taints.isEmpty then none else some taints) }
    match getPodsAssignedToNode node.name with
    | .error _ => tc
    | .ok pods =>
      if pods.isEmpty then tc
      else if taints.isEmpty then
        { tc with
          taintEvictionQueue :=
            pods.foldl (fun q pod => q.cancelWork pod.namespacedName) tc.taintEvictionQueue }
      else
        { tc with
          taintEvictionQueue := pods.foldl
            (fun q pod => processPodOnNode q pod.namespacedName pod.tolerations taints now)
            tc.taintEvictionQueue }

/-! ## The system: a run of handled updates -/

/-- The nodes and pods the informers hold when an update is handled. -/
structure Cluster where
  nodes : List Node
  pods : List Pod

/-- The node lister's `Get`. -/
def Cluster.getNode (c : Cluster) (name : String) : Except GetError Node :=
  match c.nodes.find? (·.name == name) with
  | some node => .ok node
  | none => .error .notFound

/-- The pod lister's `Get`. -/
def Cluster.getPod (c : Cluster) (name podNamespace : String) : Except GetError Pod :=
  match c.pods.find? (fun pod => pod.name == name && pod.ns == podNamespace) with
  | some pod => .ok pod
  | none => .error .notFound

/-- `getPodsAssignedToNode`, by the pods' `NodeName`. -/
def Cluster.getPodsAssignedToNode (c : Cluster) (nodeName : String) : Except String (List Pod) :=
  .ok (c.pods.filter (·.nodeName == nodeName))

/-- An item a worker takes from its channels. -/
inductive Update where
  | node (nodeName : String)
  | pod (podUpdate : PodUpdateItem)
  deriving DecidableEq, Repr

/-- A worker handling one item at `now`. -/
def handleUpdate (tc : NoExecuteTaintManager) (c : Cluster) (now : ℤ) :
    Update → NoExecuteTaintManager
  | .node nodeName => handleNodeUpdate tc nodeName (c.getNode nodeName) c.getPodsAssignedToNode now
  | .pod podUpdate =>
    handlePodUpdate tc podUpdate (c.getPod podUpdate.podName podUpdate.podNamespace) now

/-- Items handled in turn, each against the cluster and at the time given with it. -/
def runUpdates (tc : NoExecuteTaintManager) (run : List (Cluster × ℤ × Update)) :
    NoExecuteTaintManager :=
  run.foldl (fun tc e => handleUpdate tc e.1 e.2.1 e.2.2) tc

/-! ## One key's work -/

/-- What the queue holds for a key: nothing, work due at once (`nil`), or a worker. -/
inductive ScheduledWork where
  | unscheduled
  | immediate
  | pending (createdAt fireAt : ℤ)
  deriving DecidableEq, Repr

/-- The work a created worker stands for. -/
def ScheduledWork.ofWorker : Option TimedWorker → ScheduledWork
  | none => .immediate
  | some w => .pending w.createdAt w.fireAt

/-- The work the queue holds for `key`. -/
def TimedWorkerQueue.scheduledWork (q : TimedWorkerQueue) (key : NamespacedName) :
    ScheduledWork :=
  match q.workers key with
  | none => .unscheduled
  | some w => .ofWorker w

namespace TimedWorkerQueue

variable (q : TimedWorkerQueue) {key k : NamespacedName}

@[simp]
theorem ofWorker_createWorker (createdAt fireAt : ℤ) :
    ScheduledWork.ofWorker (createWorker createdAt fireAt) =
      if fireAt ≤ createdAt then .immediate else .pending createdAt fireAt := by
  unfold createWorker
  by_cases h : fireAt ≤ createdAt
  · simp [h, show fireAt - createdAt ≤ 0 by omega, ScheduledWork.ofWorker]
  · simp [h, show ¬fireAt - createdAt ≤ 0 by omega, ScheduledWork.ofWorker]

@[simp]
theorem scheduledWork_cancelWork_self : (q.cancelWork key).scheduledWork key = .unscheduled := by
  simp [cancelWork, scheduledWork]

theorem scheduledWork_cancelWork_of_ne (h : k ≠ key) :
    (q.cancelWork key).scheduledWork k = q.scheduledWork k := by
  simp [cancelWork, scheduledWork, Function.update_of_ne h]

theorem scheduledWork_addWork_of_ne (h : k ≠ key) (createdAt fireAt : ℤ) :
    (q.addWork key createdAt fireAt).scheduledWork k = q.scheduledWork k := by
  unfold addWork
  split
  · rfl
  · simp [scheduledWork, Function.update_of_ne h]

/-- `AddWork` on a key with no work creates a worker; on any other it does nothing. -/
theorem scheduledWork_addWork_self (createdAt fireAt : ℤ) :
    (q.addWork key createdAt fireAt).scheduledWork key =
      if q.scheduledWork key = .unscheduled then .ofWorker (createWorker createdAt fireAt)
      else q.scheduledWork key := by
  unfold addWork scheduledWork
  cases hw : q.workers key with
  | none => simp
  | some w => cases w <;> simp [hw, ScheduledWork.ofWorker]

theorem getWorkerUnsafe_eq_some {w : TimedWorker} (h : q.getWorkerUnsafe key = some w) :
    q.scheduledWork key = .pending w.createdAt w.fireAt := by
  unfold getWorkerUnsafe at h
  unfold scheduledWork
  have hw : q.workers key = some (some w) := Option.join_eq_some_iff.mp h
  simp [hw, ScheduledWork.ofWorker]

theorem scheduledWork_ne_pending_of_getWorkerUnsafe (h : q.getWorkerUnsafe key = none)
    (createdAt fireAt : ℤ) : q.scheduledWork key ≠ .pending createdAt fireAt := by
  unfold getWorkerUnsafe at h
  unfold scheduledWork
  cases hw : q.workers key with
  | none => simp
  | some o => cases o <;> simp_all [ScheduledWork.ofWorker]

end TimedWorkerQueue

/-! ## What one handled update does to one key -/

/-- How one key's work can change in steps taken at `now`: cancelled, made due at once, kept, a
worker created at `now`, or a worker created at or after `now` given a new due time. -/
inductive UpdateAt (now : ℤ) : ScheduledWork → ScheduledWork → Prop where
  | unscheduled (w : ScheduledWork) : UpdateAt now w .unscheduled
  | immediate (w : ScheduledWork) : UpdateAt now w .immediate
  | keep (w : ScheduledWork) : UpdateAt now w w
  | schedule (w : ScheduledWork) (fireAt : ℤ) : UpdateAt now w (.pending now fireAt)
  | reschedule {createdAt fireAt : ℤ} (fireAt' : ℤ) (h : now ≤ createdAt) :
      UpdateAt now (.pending createdAt fireAt) (.pending createdAt fireAt')

namespace UpdateAt

variable {now : ℤ} {a b c : ScheduledWork}

theorem trans (h₁ : UpdateAt now a b) (h₂ : UpdateAt now b c) : UpdateAt now a c := by
  cases h₂ with
  | unscheduled => exact .unscheduled a
  | immediate => exact .immediate a
  | keep => exact h₁
  | schedule _ fireAt => exact .schedule a fireAt
  | reschedule fireAt' hle =>
    cases h₁ with
    | keep => exact .reschedule fireAt' hle
    | schedule _ _ => exact .schedule a fireAt'
    | reschedule _ h => exact .reschedule fireAt' h

/-- A created worker stands for work made due at once or a worker with that creation time. -/
theorem ofWorker_createWorker (w : ScheduledWork) (createdAt fireAt : ℤ)
    (h : ∀ fireAt', UpdateAt now w (.pending createdAt fireAt')) :
    UpdateAt now w (.ofWorker (createWorker createdAt fireAt)) := by
  rw [TimedWorkerQueue.ofWorker_createWorker]
  split
  · exact .immediate w
  · exact h fireAt

end UpdateAt

section Steps

variable (q : TimedWorkerQueue) (key k : NamespacedName) (now : ℤ)

theorem cancelWork_updateAt : UpdateAt now (q.scheduledWork k) ((q.cancelWork key).scheduledWork k) := by
  by_cases h : k = key
  · subst h
    rw [TimedWorkerQueue.scheduledWork_cancelWork_self]
    exact .unscheduled _
  · rw [q.scheduledWork_cancelWork_of_ne h]
    exact .keep _

/-- `processPodOnNode` changes the work of its own pod only. -/
theorem processPodOnNode_of_ne (tolerations : List Toleration) (taints : List Taint)
    (h : k ≠ key) :
    (processPodOnNode q key tolerations taints now).scheduledWork k = q.scheduledWork k := by
  have hc : ∀ q' : TimedWorkerQueue, (q'.cancelWork key).scheduledWork k = q'.scheduledWork k :=
    fun q' => q'.scheduledWork_cancelWork_of_ne h
  have ha : ∀ (q' : TimedWorkerQueue) (c f : ℤ),
      (q'.addWork key c f).scheduledWork k = q'.scheduledWork k :=
    fun q' c f => q'.scheduledWork_addWork_of_ne h c f
  unfold processPodOnNode
  dsimp only
  have h0 : (if taints.isEmpty then q.cancelWork key else q).scheduledWork k =
      q.scheduledWork k := by
    split
    · exact hc q
    · rfl
  split
  · rw [ha, hc, h0]
  · split
    · rw [hc, h0]
    · split
      · split
        · exact h0
        · rw [ha, hc, h0]
      · rw [ha, h0]

/-- What `processPodOnNode` at `now` can do to any key's work. -/
theorem processPodOnNode_updateAt (tolerations : List Toleration) (taints : List Taint) :
    UpdateAt now (q.scheduledWork k)
      ((processPodOnNode q key tolerations taints now).scheduledWork k) := by
  by_cases hk : k = key
  swap
  · rw [processPodOnNode_of_ne q key k now tolerations taints hk]
    exact .keep _
  subst hk
  unfold processPodOnNode
  dsimp only
  -- the cancel of the `len(taints) == 0` guard is a first step of its own
  generalize hq₀ : (if taints.isEmpty then q.cancelWork k else q) = q₀
  have h₀ : UpdateAt now (q.scheduledWork k) (q₀.scheduledWork k) := by
    subst hq₀
    split
    · exact cancelWork_updateAt q k k now
    · exact .keep _
  refine h₀.trans ?_
  split
  · -- a taint is not tolerated: the pod is deleted at once
    rw [TimedWorkerQueue.scheduledWork_addWork_self, TimedWorkerQueue.scheduledWork_cancelWork_self,
      if_pos rfl, TimedWorkerQueue.ofWorker_createWorker, if_pos le_rfl]
    exact .immediate _
  · split
    · exact cancelWork_updateAt q₀ k k now
    · split
      · rename_i w hw
        have hpend := q₀.getWorkerUnsafe_eq_some hw
        split
        · exact .keep _
        · -- the worker was created at or after `now`, and is created again with its time
          rename_i hlt
          rw [TimedWorkerQueue.scheduledWork_addWork_self,
            TimedWorkerQueue.scheduledWork_cancelWork_self, if_pos rfl, hpend]
          exact UpdateAt.ofWorker_createWorker _ _ _ fun fireAt' => .reschedule fireAt' (by omega)
      · rename_i hw
        rw [TimedWorkerQueue.scheduledWork_addWork_self]
        split
        · exact UpdateAt.ofWorker_createWorker _ _ _ fun fireAt' => .schedule _ fireAt'
        · exact .keep _

end Steps

/-- A loop of steps that each change a key's work as `UpdateAt now` allows changes it so. -/
theorem foldl_updateAt {α : Type*} (step : TimedWorkerQueue → α → TimedWorkerQueue)
    (k : NamespacedName) (now : ℤ)
    (hstep : ∀ q a, UpdateAt now (q.scheduledWork k) ((step q a).scheduledWork k)) :
    ∀ (l : List α) (q : TimedWorkerQueue),
      UpdateAt now (q.scheduledWork k) ((l.foldl step q).scheduledWork k)
  | [], _ => .keep _
  | a :: l, q => (hstep q a).trans (foldl_updateAt step k now hstep l (step q a))

section Handlers

variable (tc : NoExecuteTaintManager) (k : NamespacedName) (now : ℤ)

theorem handlePodUpdate_updateAt (podUpdate : PodUpdateItem) (getPod : Except GetError Pod) :
    UpdateAt now (tc.taintEvictionQueue.scheduledWork k)
      ((handlePodUpdate tc podUpdate getPod now).taintEvictionQueue.scheduledWork k) := by
  unfold handlePodUpdate
  split
  · exact cancelWork_updateAt _ _ k now
  · exact .keep _
  · split
    · exact .keep _
    · split
      · exact .keep _
      · split
        · exact .keep _
        · exact processPodOnNode_updateAt _ _ k now _ _

theorem handleNodeUpdate_updateAt (nodeName : String) (getNode : Except GetError Node)
    (getPodsAssignedToNode : String → Except String (List Pod)) :
    UpdateAt now (tc.taintEvictionQueue.scheduledWork k)
      ((handleNodeUpdate tc nodeName getNode getPodsAssignedToNode now).taintEvictionQueue.scheduledWork
        k) := by
  unfold handleNodeUpdate
  split
  · exact .keep _
  · exact .keep _
  · dsimp only
    split
    · exact .keep _
    · split
      · exact .keep _
      · split
        · exact foldl_updateAt _ k now (fun q pod => cancelWork_updateAt q _ k now) _ _
        · exact foldl_updateAt _ k now (fun q pod => processPodOnNode_updateAt q _ k now _ _) _ _

theorem handleUpdate_updateAt (c : Cluster) (update : Update) :
    UpdateAt now (tc.taintEvictionQueue.scheduledWork k)
      ((handleUpdate tc c now update).taintEvictionQueue.scheduledWork k) := by
  cases update with
  | node nodeName => exact handleNodeUpdate_updateAt tc k now nodeName _ _
  | pod podUpdate => exact handlePodUpdate_updateAt tc k now podUpdate _

end Handlers

/-! ## A worker's due time over a run -/

/-- The work of a period whose worker was created at `createdAt`, due at `fireAt`: any worker is
that one, or one created later. -/
def PeriodFrom (createdAt fireAt : ℤ) (w : ScheduledWork) : Prop :=
  ∀ createdAt' fireAt', w = .pending createdAt' fireAt' →
    (createdAt' = createdAt ∧ fireAt' = fireAt) ∨ createdAt < createdAt'

/-- A handled update after the worker's creation keeps `PeriodFrom`: the worker can be given a
new due time only at the instant it was created. -/
theorem PeriodFrom.updateAt {createdAt fireAt now : ℤ} {w w' : ScheduledWork}
    (hw : PeriodFrom createdAt fireAt w) (hnow : createdAt < now) (hu : UpdateAt now w w') :
    PeriodFrom createdAt fireAt w' := by
  intro c f hw'
  cases hu with
  | unscheduled => cases hw'
  | immediate => cases hw'
  | keep => exact hw c f hw'
  | schedule _ _ =>
    cases hw'
    exact .inr hnow
  | reschedule _ hle =>
    cases hw'
    rcases hw c _ rfl with ⟨rfl, -⟩ | hlt
    · omega
    · exact .inr hlt

/-- **The due time of a period does not move.** Over every run of handled updates at times after
a worker's creation, the pod's work is afterwards that worker, due when it was, or none, or work
due at once, or a worker created later: whatever the `TolerationSeconds` the updates read. -/
theorem runUpdates_period_deadline (tc : NoExecuteTaintManager) (key : NamespacedName)
    {createdAt fireAt : ℤ} (hstart : tc.taintEvictionQueue.scheduledWork key = .pending createdAt fireAt)
    (run : List (Cluster × ℤ × Update)) (hlater : ∀ e ∈ run, createdAt < e.2.1)
    (createdAt' fireAt' : ℤ)
    (hend : (runUpdates tc run).taintEvictionQueue.scheduledWork key = .pending createdAt' fireAt') :
    (createdAt' = createdAt ∧ fireAt' = fireAt) ∨ createdAt < createdAt' := by
  -- the induction is on the run, with `PeriodFrom` as the invariant
  suffices h : ∀ (run : List (Cluster × ℤ × Update)) (tc : NoExecuteTaintManager),
      (∀ e ∈ run, createdAt < e.2.1) →
      PeriodFrom createdAt fireAt (tc.taintEvictionQueue.scheduledWork key) →
      PeriodFrom createdAt fireAt ((runUpdates tc run).taintEvictionQueue.scheduledWork key) from
    h run tc hlater (by rw [hstart]; rintro c f ⟨⟩; exact .inl ⟨rfl, rfl⟩) createdAt' fireAt' hend
  intro run
  induction run with
  | nil => intro tc _ hp; exact hp
  | cons e run ih =>
    intro tc hl hp
    have he : createdAt < e.2.1 := hl e (List.mem_cons_self ..)
    exact ih _ (fun e' he' => hl e' (List.mem_cons_of_mem _ he'))
      (hp.updateAt he (handleUpdate_updateAt tc key e.2.1 e.1 e.2.2))

/-! ## The outcomes a pod's tolerations decide alone -/

/-- An `Option` loop fails exactly where one element's step fails. -/
theorem mapM_option_eq_none_iff {α β : Type*} (g : α → Option β) (l : List α) :
    l.mapM g = none ↔ ∃ a ∈ l, g a = none := by
  induction l with
  | nil => simp
  | cons a l ih =>
    cases hf : g a with
    | none => simp [List.mapM_cons, hf]
    | some b =>
      cases hl : l.mapM g with
      | none => simp_all [List.mapM_cons]
      | some r => simp_all [List.mapM_cons]

theorem getMatchingTolerations_fst_eq_false_iff {taints : List Taint} (htaints : taints ≠ [])
    (tolerations : List Toleration) :
    (getMatchingTolerations taints tolerations).1 = false ↔
      ∃ taint ∈ taints, ∀ t ∈ tolerations, t.toleratesTaint taint = false := by
  have hmapM := mapM_option_eq_none_iff (fun taint => tolerations.find? (·.toleratesTaint taint))
    taints
  simp only [List.find?_eq_none, Bool.not_eq_true] at hmapM
  unfold getMatchingTolerations
  simp only [List.isEmpty_iff, htaints, if_false]
  split
  · rename_i hnil
    subst hnil
    obtain ⟨taint, htaint⟩ := List.exists_mem_of_ne_nil taints htaints
    simp only [true_iff]
    exact ⟨taint, htaint, by simp⟩
  · rw [← hmapM]
    split <;> simp_all

theorem getMatchingTolerations_snd_ne_nil {taints : List Taint} (htaints : taints ≠ [])
    {tolerations : List Toleration} (h : (getMatchingTolerations taints tolerations).1 = true) :
    (getMatchingTolerations taints tolerations).2 ≠ [] := by
  unfold getMatchingTolerations at h ⊢
  simp only [List.isEmpty_iff, htaints, if_false] at h ⊢
  split at h
  · simp at h
  · rename_i hne
    simp only [hne, if_false] at h ⊢
    split
    · -- the loop gives one toleration per taint, and there is a taint
      rename_i result hresult
      obtain ⟨taint, taints', rfl⟩ := List.exists_cons_of_ne_nil htaints
      intro hr
      subst hr
      cases hg : tolerations.find? (·.toleratesTaint taint) <;>
        cases hm : taints'.mapM (fun taint => tolerations.find? (·.toleratesTaint taint)) <;>
        simp_all [List.mapM_cons]
    · simp_all

/-- Tolerations of which none has `TolerationSeconds` tolerate forever. -/
theorem getMinTolerationTime_of_forall_none {tolerations : List Toleration}
    (hne : tolerations ≠ []) (h : ∀ t ∈ tolerations, t.tolerationSeconds = none) :
    getMinTolerationTime tolerations = -1 := by
  have hfold : ∀ l : List Toleration, (∀ t ∈ l, t.tolerationSeconds = none) →
      l.foldlM minTolerationStep maxInt64 = some maxInt64 := by
    intro l hl
    induction l with
    | nil => rfl
    | cons t l ih =>
      simp only [List.foldlM_cons, minTolerationStep, hl t (List.mem_cons_self ..)]
      exact ih fun t' ht' => hl t' (List.mem_cons_of_mem _ ht')
  unfold getMinTolerationTime
  simp [List.isEmpty_iff, hne, hfold tolerations h]

/-- A taint that no toleration of the pod tolerates: the pod's work is due at once. -/
theorem processPodOnNode_not_tolerated (q : TimedWorkerQueue) (key : NamespacedName)
    {tolerations : List Toleration} {taints : List Taint} (now : ℤ)
    (h : (getMatchingTolerations taints tolerations).1 = false) :
    (processPodOnNode q key tolerations taints now).scheduledWork key = .immediate := by
  unfold processPodOnNode
  simp only [h, Bool.not_false, if_true]
  rw [TimedWorkerQueue.scheduledWork_addWork_self, TimedWorkerQueue.scheduledWork_cancelWork_self,
    if_pos rfl, TimedWorkerQueue.ofWorker_createWorker, if_pos le_rfl]

/-- Every taint tolerated by a toleration without `TolerationSeconds`, the first that tolerates
it: the pod's work is cancelled. -/
theorem processPodOnNode_tolerated_forever (q : TimedWorkerQueue) (key : NamespacedName)
    {tolerations : List Toleration} {taints : List Taint} (now : ℤ) (htaints : taints ≠ [])
    (h : (getMatchingTolerations taints tolerations).1 = true)
    (hforever : ∀ t ∈ (getMatchingTolerations taints tolerations).2, t.tolerationSeconds = none) :
    (processPodOnNode q key tolerations taints now).scheduledWork key = .unscheduled := by
  have hmin := getMinTolerationTime_of_forall_none
    (getMatchingTolerations_snd_ne_nil htaints h) hforever
  unfold processPodOnNode
  simp only [h, Bool.not_true, hmin]
  simp

/-- In the loop over a node's pods, a pod's work is what processing it made it: the other pods
have other keys. -/
theorem foldl_processPodOnNode_of_notMem (taints : List Taint) (now : ℤ) (k : NamespacedName) :
    ∀ (pods : List Pod) (q : TimedWorkerQueue), k ∉ pods.map Pod.namespacedName →
      (pods.foldl (fun q pod => processPodOnNode q pod.namespacedName pod.tolerations taints now)
        q).scheduledWork k = q.scheduledWork k
  | [], _, _ => rfl
  | pod :: pods, q, hk => by
    simp only [List.map_cons, List.mem_cons, not_or] at hk
    rw [List.foldl_cons, foldl_processPodOnNode_of_notMem taints now k pods _ hk.2,
      processPodOnNode_of_ne _ _ _ _ _ _ hk.1]

theorem foldl_cancelWork_of_mem (k : NamespacedName) :
    ∀ (pods : List Pod) (q : TimedWorkerQueue), k ∈ pods.map Pod.namespacedName →
      (pods.foldl (fun q pod => q.cancelWork pod.namespacedName) q).scheduledWork k = .unscheduled
  | [], _, hk => by simp at hk
  | pod :: pods, q, hk => by
    rw [List.foldl_cons]
    by_cases hin : k ∈ pods.map Pod.namespacedName
    · exact foldl_cancelWork_of_mem k pods _ hin
    · -- `k` is this pod's key, and no later pod cancels it again
      have hpod : k = pod.namespacedName := by simpa [hin] using hk
      have hrest : ∀ q' : TimedWorkerQueue,
          (pods.foldl (fun q pod => q.cancelWork pod.namespacedName) q').scheduledWork k =
            q'.scheduledWork k := by
        clear hk hpod
        induction pods with
        | nil => intro; rfl
        | cons p ps ih =>
          intro q'
          simp only [List.map_cons, List.mem_cons, not_or] at hin
          rw [List.foldl_cons, ih hin.2, q'.scheduledWork_cancelWork_of_ne hin.1]
      rw [hrest, hpod, TimedWorkerQueue.scheduledWork_cancelWork_self]

/-- **What a node update settles.** For a pod of the node's pod list, which holds each key once:
with no `NoExecute` taint left its work is cancelled; with one its tolerations do not tolerate, it
is due at once; with every taint tolerated by a toleration without `TolerationSeconds`, it is
cancelled. -/
theorem handleNodeUpdate_settles (tc : NoExecuteTaintManager) (nodeName : String) {node : Node}
    {getPodsAssignedToNode : String → Except String (List Pod)} {pods : List Pod} (now : ℤ)
    (hpods : getPodsAssignedToNode node.name = .ok pods)
    (hnodup : (pods.map Pod.namespacedName).Nodup) {pod : Pod} (hpod : pod ∈ pods) :
    let result := (handleNodeUpdate tc nodeName (.ok node) getPodsAssignedToNode now)
    let taints := getNoExecuteTaints node.taints
    (taints = [] → result.taintEvictionQueue.scheduledWork pod.namespacedName = .unscheduled) ∧
      ((∃ taint ∈ taints, ∀ t ∈ pod.tolerations, t.toleratesTaint taint = false) →
        result.taintEvictionQueue.scheduledWork pod.namespacedName = .immediate) ∧
      (taints ≠ [] → (getMatchingTolerations taints pod.tolerations).1 = true →
        (∀ t ∈ (getMatchingTolerations taints pod.tolerations).2, t.tolerationSeconds = none) →
        result.taintEvictionQueue.scheduledWork pod.namespacedName = .unscheduled) := by
  intro result taints
  have hne : pods.isEmpty = false := by
    cases pods with
    | nil => simp at hpod
    | cons _ _ => rfl
  obtain ⟨before, after, rfl⟩ := List.append_of_mem hpod
  have hkeys := hnodup
  simp only [List.map_append, List.map_cons] at hkeys
  have hafter : pod.namespacedName ∉ after.map Pod.namespacedName :=
    (List.nodup_cons.mp (List.nodup_append.mp hkeys).2.1).1
  have hloop : ∀ q, (((before ++ pod :: after).foldl
      (fun q pod => processPodOnNode q pod.namespacedName pod.tolerations taints now) q).scheduledWork
        pod.namespacedName) =
      (processPodOnNode (before.foldl
        (fun q pod => processPodOnNode q pod.namespacedName pod.tolerations taints now) q)
        pod.namespacedName pod.tolerations taints now).scheduledWork pod.namespacedName := by
    intro q
    rw [List.foldl_append, List.foldl_cons, foldl_processPodOnNode_of_notMem _ _ _ _ _ hafter]
  have hresult : taints ≠ [] → result.taintEvictionQueue.scheduledWork pod.namespacedName =
      (processPodOnNode (before.foldl
        (fun q pod => processPodOnNode q pod.namespacedName pod.tolerations taints now)
        tc.taintEvictionQueue) pod.namespacedName pod.tolerations taints now).scheduledWork
        pod.namespacedName := by
    intro htaints
    simp only [result, handleNodeUpdate, hpods, hne, Bool.false_eq_true, if_false]
    rw [if_neg (by simpa [List.isEmpty_iff] using htaints)]
    exact hloop _
  refine ⟨fun htaints => ?_, fun ⟨taint, htaint, hnone⟩ => ?_, fun htaints h hforever => ?_⟩
  · simp only [result, handleNodeUpdate, hpods, hne, Bool.false_eq_true, if_false]
    rw [if_pos (by simpa [List.isEmpty_iff] using htaints)]
    exact foldl_cancelWork_of_mem _ _ _ (by simp)
  · have htaints : taints ≠ [] := List.ne_nil_of_mem htaint
    rw [hresult htaints]
    exact processPodOnNode_not_tolerated _ _ now
      ((getMatchingTolerations_fst_eq_false_iff htaints _).mpr ⟨taint, htaint, hnone⟩)
  · rw [hresult htaints]
    exact processPodOnNode_tolerated_forever _ _ now htaints h hforever

/-! ## A raised toleration -/

/-- The taint of a node the node lifecycle controller cannot reach. -/
def unreachableTaint : Taint := ⟨"node.kubernetes.io/unreachable", "", .noExecute⟩

/-- A toleration of `unreachableTaint` for `seconds` seconds. -/
def unreachableToleration (seconds : ℤ) : Toleration :=
  ⟨"node.kubernetes.io/unreachable", .opExists, "", some .noExecute, some seconds⟩

/-- `node-1`, unreachable, and the pod `default/web` on it, tolerating that for `seconds`. -/
def webCluster (seconds : ℤ) : Cluster :=
  ⟨[⟨"node-1", [unreachableTaint]⟩],
    [⟨"default", "web", "node-1", [unreachableToleration seconds]⟩]⟩

/-- The manager before any update. -/
def startManager : NoExecuteTaintManager := ⟨⟨fun _ => none⟩, fun _ => none⟩

/-- The node update at time 0, with a toleration of 10 s, then at 5 s the pod update that raises
it to 100 s. -/
def tolerationRaised : List (Cluster × ℤ × Update) :=
  [(webCluster 10, 0, .node "node-1"),
    (webCluster 100, 5 * second, .pod ⟨"web", "default", "node-1"⟩)]

theorem handlePodUpdate_keeps_stale_deadline :
    (runUpdates startManager (tolerationRaised.take 1)).taintEvictionQueue.scheduledWork
        ⟨"default", "web"⟩ = .pending 0 (10 * second) ∧
      getMinTolerationTime (getMatchingTolerations (getNoExecuteTaints [unreachableTaint])
        [unreachableToleration 100]).2 = 100 * second ∧
      (runUpdates startManager tolerationRaised).taintEvictionQueue.scheduledWork
        ⟨"default", "web"⟩ = .pending 0 (10 * second) := by
  decide

end Kubernetes.NodeLifecycle
