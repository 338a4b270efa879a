import Mathlib

/-!
# What the kubelet does to a pod: `computePodActions`

`pkg/kubelet/kuberuntime/kuberuntime_manager.go`, `computePodActions`, with `podSandboxChanged`,
`containerSucceeded`, `findNextInitContainerToRun` (`kuberuntime_container.go`),
`ShouldContainerBeRestarted` (`pkg/kubelet/container/helpers.go`) and `isInitContainerFailed`.
From the pod's spec and the runtime's status of its sandboxes and containers, it decides
whether to create a new sandbox, which init container to run next, and which containers to start
and to kill.

* `computePodActions_containersToStart_ne_nil`: regular containers are started only once
  initialization is done, or with a new sandbox for a pod without init containers.
* `computePodActions_startJustified`: with the sandbox kept, every container started is one whose
  latest status allows it: none, created or unknown, exited where the restart policy restarts it,
  or running and killed for a changed spec or a failed probe.
* `computePodActions_sandbox_containersToStart`: with a new sandbox, the containers started are
  all but those that succeeded under `OnFailure`, unless a `Never` pod is done.
* `computePodActions_restarts_exited_never`: so a `Never` pod whose sandbox is gone has its
  exited container started again.

The probe managers are functions from a container's ID to the result they hold. The post-stop
hook of the loop, and the container's hash, are taken as given (`Container.hash` is
`HashContainer` of the spec).
-/

namespace Kubernetes.KubeRuntime

/-- `kubecontainer.State`. -/
inductive State
  | created
  | running
  | exited
  | unknown
  deriving DecidableEq, Repr

/-- `kubecontainer.Status`: the runtime's status of a container. -/
structure Status where
  id : String
  name : String
  state : State
  exitCode : ℤ
  hash : ℕ
  deriving DecidableEq, Repr

/-- `runtimeapi.NamespaceMode`. -/
inductive NamespaceMode
  | pod
  | container
  | node
  | target
  deriving DecidableEq, Repr

/-- `runtimeapi.PodSandboxStatus`: its ID, whether it is `SANDBOX_READY`, its attempt, its
network namespace mode and its IP. -/
structure PodSandboxStatus where
  id : String
  ready : Bool
  attempt : UInt32
  network : NamespaceMode
  ip : String
  deriving DecidableEq, Repr

/-- `kubecontainer.PodStatus`: the sandboxes, latest first, and the containers' statuses, the
latest of each name first. -/
structure PodStatus where
  sandboxStatuses : List PodSandboxStatus
  containerStatuses : List Status
  deriving DecidableEq, Repr

/-- `v1.Container`, with `hash` its `HashContainer`. -/
structure Container where
  name : String
  hash : ℕ
  deriving DecidableEq, Repr

/-- `v1.RestartPolicy`. -/
inductive RestartPolicy
  | always
  | onFailure
  | never
  deriving DecidableEq, Repr

/-- The fields of `v1.Pod` that `computePodActions` reads. -/
structure Pod where
  restartPolicy : RestartPolicy
  containers : List Container
  initContainers : List Container
  ephemeralContainers : List Container
  deletionTimestampSet : Bool
  hostNetwork : Bool
  deriving DecidableEq, Repr

/-- `proberesults.Result`. -/
inductive ProbeResult
  | unknown
  | success
  | failure
  deriving DecidableEq, Repr

/-- `containerKillReason`; `unset` is the empty reason of a changed spec. -/
inductive ContainerKillReason
  | unset
  | startupProbe
  | livenessProbe
  | failedPostStartHook
  | unknown
  deriving DecidableEq, Repr

/-- `containerToKillInfo`. -/
structure ContainerToKillInfo where
  container : Container
  name : String
  message : String
  reason : ContainerKillReason
  deriving DecidableEq, Repr

/-- `podActions`; `containersToKill` is the map from a container's ID to why it is killed. -/
structure PodActions where
  killPod : Bool
  createSandbox : Bool
  sandboxID : String
  attempt : UInt32
  nextInitContainerToStart : Option Container
  containersToStart : List ℕ
  containersToKill : List (String × ContainerToKillInfo)
  ephemeralContainersToStart : List ℕ
  deriving DecidableEq, Repr

/-- `changes.ContainersToKill[id] = info`. -/
def setKill (containersToKill : List (String × ContainerToKillInfo)) (id : String)
    (info : ContainerToKillInfo) : List (String × ContainerToKillInfo) :=
  (id, info) :: containersToKill.filter fun entry => entry.1 ≠ id

/-! ## The helpers -/

/-- `podStatus.FindContainerStatusByName(containerName)`: the latest status of the name. -/
def findContainerStatusByName (podStatus : PodStatus) (containerName : String) : Option Status :=
  podStatus.containerStatuses.find? fun containerStatus => containerStatus.name = containerName

/-- `networkNamespaceForPod(pod)`. -/
def networkNamespaceForPod (pod : Pod) : NamespaceMode :=
  if pod.hostNetwork then .node else .pod

/-- `podSandboxChanged(pod, podStatus)`: whether a new sandbox is needed, its attempt, and the
sandbox to replace. -/
def podSandboxChanged (pod : Pod) (podStatus : PodStatus) : Bool × UInt32 × String :=
  match podStatus.sandboxStatuses with
  | [] => (true, 0, "")
  | sandboxStatus :: _ =>
    let readySandboxCount := (podStatus.sandboxStatuses.filter fun s => s.ready).length
    if readySandboxCount > 1 then (true, sandboxStatus.attempt + 1, sandboxStatus.id)
    else if !sandboxStatus.ready then (true, sandboxStatus.attempt + 1, sandboxStatus.id)
    else if sandboxStatus.network ≠ networkNamespaceForPod pod then
      (true, sandboxStatus.attempt + 1, "")
    else if !pod.hostNetwork ∧ sandboxStatus.ip = "" then
      (true, sandboxStatus.attempt + 1, sandboxStatus.id)
    else (false, sandboxStatus.attempt, sandboxStatus.id)

/-- `shouldRestartOnFailure(pod)`. -/
def shouldRestartOnFailure (pod : Pod) : Bool :=
  pod.restartPolicy ≠ .never

/-- `containerSucceeded(c, podStatus)`. -/
def containerSucceeded (c : Container) (podStatus : PodStatus) : Bool :=
  match findContainerStatusByName podStatus c.name with
  | none => false
  | some cStatus => if cStatus.state = .running then false else cStatus.exitCode = 0

/-- `kubecontainer.ShouldContainerBeRestarted(container, pod, podStatus)`. -/
def shouldContainerBeRestarted (container : Container) (pod : Pod) (podStatus : PodStatus) : Bool :=
  if pod.deletionTimestampSet then false
  else
    match findContainerStatusByName podStatus container.name with
    | none => true
    | some status =>
      if status.state = .running then false
      else if status.state = .unknown ∨ status.state = .created then true
      else if pod.restartPolicy = .never then false
      else if pod.restartPolicy = .onFailure ∧ status.exitCode = 0 then false
      else true

/-- `isInitContainerFailed(status)`. -/
def isInitContainerFailed (status : Status) : Bool :=
  (status.state = .exited ∧ status.exitCode ≠ 0) ∨ status.state = .unknown

/-- The last loop of `findNextInitContainerToRun`, over the init containers from the last one
down, with their indexes: the next to start, and whether all are done. -/
def initProgress (pod : Pod) (podStatus : PodStatus) : List (Container × ℕ) → Option Container × Bool
  | [] => (pod.initContainers.head?, false)
  | (container, i) :: rest =>
    match findContainerStatusByName podStatus container.name with
    | none => initProgress pod podStatus rest
    | some status =>
      if status.state = .running then (none, false)
      else if status.state = .exited then
        if i = pod.initContainers.length - 1 then (none, true)
        else (pod.initContainers[i + 1]?, false)
      else initProgress pod podStatus rest

/-- `findNextInitContainerToRun(pod, podStatus)`: the status of the last failed init container,
the next init container to start, and whether initialization is done. -/
def findNextInitContainerToRun (pod : Pod) (podStatus : PodStatus) :
    Option Status × Option Container × Bool :=
  if pod.initContainers = [] then (none, none, true)
  -- a running regular container means the init containers ran, whatever the runtime has left
  else if pod.containers.any fun container =>
      (findContainerStatusByName podStatus container.name).any fun s => s.state = .running then
    (none, none, true)
  else
    let failed := pod.initContainers.reverse.findSome? fun container =>
      (findContainerStatusByName podStatus container.name).bind fun status =>
        if isInitContainerFailed status then some (status, container) else none
    match failed with
    | some (status, container) => (some status, some container, false)
    | none =>
      let progress := initProgress pod podStatus pod.initContainers.zipIdx.reverse
      (none, progress.1, progress.2)

/-! ## `computePodActions` -/

/-- The message of a container killed because its state is unknown. -/
def unknownStateMessage : String :=
  "Container is in \"unknown\" state, try killing it before restart"

/-- The message of an init container killed because its state is unknown. -/
def initUnknownStateMessage : String :=
  "Init container is in \"unknown\" state, try killing it before restart"

/-- A container that is not running: started if `ShouldContainerBeRestarted`, and killed first if
its state is unknown. -/
def restartContainerStep (pod : Pod) (podStatus : PodStatus) (container : Container) (idx : ℕ)
    (containerStatus : Option Status) (changes : PodActions) : PodActions :=
  if shouldContainerBeRestarted container pod podStatus then
    let changes := { changes with containersToStart := changes.containersToStart ++ [idx] }
    match containerStatus with
    | some cs =>
      if cs.state = .unknown then
        { changes with
          containersToKill := setKill changes.containersToKill cs.id
            ⟨container, cs.name, unknownStateMessage, .unknown⟩ }
      else changes
    | none => changes
  else changes

/-- A running container killed with the message and reason, and started again if `restart`. -/
def killContainer (container : Container) (idx : ℕ) (cs : Status) (message : String)
    (reason : ContainerKillReason) (restart : Bool) (changes : PodActions) : PodActions :=
  let message := if restart then message ++ ", will be restarted" else message
  let changes := if restart then
      { changes with containersToStart := changes.containersToStart ++ [idx] }
    else changes
  { changes with
    containersToKill := setKill changes.containersToKill cs.id ⟨container, cs.name, message, reason⟩ }

/-- A running container: killed, and started again, if its spec changed; killed, and started
again unless the policy is `Never`, if a probe failed; kept otherwise. -/
def runningContainerStep (pod : Pod) (liveness startup : String → Option ProbeResult)
    (container : Container) (idx : ℕ) (cs : Status) (changes : PodActions) (keepCount : ℕ) :
    PodActions × ℕ :=
  if cs.hash ≠ container.hash then
    (killContainer container idx cs ("Container " ++ container.name ++ " definition changed")
      .unset true changes, keepCount)
  else if liveness cs.id = some .failure then
    (killContainer container idx cs ("Container " ++ container.name ++ " failed liveness probe")
      .livenessProbe (shouldRestartOnFailure pod) changes, keepCount)
  else if startup cs.id = some .failure then
    (killContainer container idx cs ("Container " ++ container.name ++ " failed startup probe")
      .startupProbe (shouldRestartOnFailure pod) changes, keepCount)
  else (changes, keepCount + 1)

/-- One turn of the loop over the regular containers, on the changes and `keepCount`. -/
def containerStep (pod : Pod) (podStatus : PodStatus) (liveness startup : String → Option ProbeResult)
    (acc : PodActions × ℕ) (entry : Container × ℕ) : PodActions × ℕ :=
  match findContainerStatusByName podStatus entry.1.name with
  | some cs =>
    if cs.state = .running then
      runningContainerStep pod liveness startup entry.1 entry.2 cs acc.1 acc.2
    else (restartContainerStep pod podStatus entry.1 entry.2 (some cs) acc.1, acc.2)
  | none => (restartContainerStep pod podStatus entry.1 entry.2 none acc.1, acc.2)

/-- The branch of a new sandbox: nothing for a `Never` pod that ran before; else the containers
to start, all but those that succeeded under `OnFailure`, or the first init container. -/
def sandboxActions (pod : Pod) (podStatus : PodStatus) (changes : PodActions) : PodActions :=
  if !shouldRestartOnFailure pod ∧ changes.attempt ≠ 0 ∧ podStatus.containerStatuses ≠ [] then
    { changes with createSandbox := false }
  else
    let containersToStart := (pod.containers.zipIdx.filter fun entry =>
      !(pod.restartPolicy = .onFailure ∧ containerSucceeded entry.1 podStatus)).map Prod.snd
    if containersToStart = [] ∧ (findNextInitContainerToRun pod podStatus).2.2 then
      { changes with createSandbox := false }
    else if pod.initContainers ≠ [] then
      { changes with nextInitContainerToStart := pod.initContainers.head? }
    else { changes with containersToStart := containersToStart }

/-- The branch of the sandbox kept, once initialization is done: the loop over the regular
containers, and the pod killed if it keeps and starts none. -/
def containerActions (pod : Pod) (podStatus : PodStatus)
    (liveness startup : String → Option ProbeResult) (changes : PodActions) : PodActions :=
  let result := pod.containers.zipIdx.foldl (containerStep pod podStatus liveness startup) (changes, 0)
  if result.2 = 0 ∧ result.1.containersToStart = [] then { result.1 with killPod := true }
  else result.1

/-- The branch of the sandbox kept, while initialization is not done: the next init container, or
the pod killed if the failed one may not restart. -/
def initActions (pod : Pod) (initLastStatus : Option Status) (next : Option Container)
    (changes : PodActions) : PodActions :=
  match next with
  | some next =>
    let initFailed := initLastStatus.any isInitContainerFailed
    if initFailed ∧ !shouldRestartOnFailure pod then { changes with killPod := true }
    else
      let changes := match initLastStatus with
        | some status =>
          if status.state = State.unknown then
            { changes with
              containersToKill := setKill changes.containersToKill status.id
                ⟨next, next.name, initUnknownStateMessage, .unknown⟩ }
          else changes
        | none => changes
      { changes with nextInitContainerToStart := some next }
  | none => changes

/-- The ephemeral containers to start, where the gate is on: those never started, since they are
never restarted. They are started even before initialization completes. -/
def ephemeralActions (ephemeralContainers : Bool) (pod : Pod) (podStatus : PodStatus)
    (changes : PodActions) : PodActions :=
  if ephemeralContainers then
    { changes with
      ephemeralContainersToStart := (pod.ephemeralContainers.zipIdx.filter fun entry =>
        (findContainerStatusByName podStatus entry.1.name).isNone).map Prod.snd }
  else changes

/-- `computePodActions(pod, podStatus)`, with the `EphemeralContainers` gate and the liveness and
startup results. -/
def computePodActions (ephemeralContainers : Bool) (liveness startup : String → Option ProbeResult)
    (pod : Pod) (podStatus : PodStatus) : PodActions :=
  let (createPodSandbox, attempt, sandboxID) := podSandboxChanged pod podStatus
  let changes : PodActions := ⟨createPodSandbox, createPodSandbox, sandboxID, attempt, none, [], [], []⟩
  if createPodSandbox then sandboxActions pod podStatus changes
  else
    let changes := ephemeralActions ephemeralContainers pod podStatus changes
    let (initLastStatus, next, done) := findNextInitContainerToRun pod podStatus
    if !done then initActions pod initLastStatus next changes
    else containerActions pod podStatus liveness startup changes

/-! ## The killed containers' IDs -/

/-- The IDs in `ContainersToKill`. -/
def killedIDs (changes : PodActions) : List String :=
  changes.containersToKill.map Prod.fst

theorem mem_map_fst_setKill {containersToKill : List (String × ContainerToKillInfo)} {id k : String}
    {info : ContainerToKillInfo} :
    k ∈ (setKill containersToKill id info).map Prod.fst ↔ k = id ∨ k ∈ containersToKill.map Prod.fst := by
  by_cases hk : k = id
  · simp [setKill, hk]
  · simp [setKill, hk, List.mem_filter]

/-! ## Which starts are allowed -/

/-- Why an index of `ContainersToStart` may be there, with `killed` the IDs of
`ContainersToKill`: it names a container whose latest status is absent, created or unknown, or
exited where the policy restarts it, or running and killed for a changed spec, or for a failed
probe where the policy is not `Never`. -/
def StartJustified (pod : Pod) (podStatus : PodStatus) (liveness startup : String → Option ProbeResult)
    (killed : List String) (idx : ℕ) : Prop :=
  ∃ container, pod.containers[idx]? = some container ∧
    match findContainerStatusByName podStatus container.name with
    | none => True
    | some s =>
      s.state = .created ∨ s.state = .unknown ∨
        (s.state = .exited ∧
          (pod.restartPolicy = .always ∨ pod.restartPolicy = .onFailure ∧ s.exitCode ≠ 0)) ∨
        (s.state = .running ∧ s.id ∈ killed ∧
          (s.hash ≠ container.hash ∨ pod.restartPolicy ≠ .never ∧
            (liveness s.id = some .failure ∨ startup s.id = some .failure)))

/-- Every index of `ContainersToStart` is justified by what `ContainersToKill` holds. -/
def AllStartsJustified (pod : Pod) (podStatus : PodStatus)
    (liveness startup : String → Option ProbeResult) (changes : PodActions) : Prop :=
  ∀ idx ∈ changes.containersToStart, StartJustified pod podStatus liveness startup (killedIDs changes) idx

section Justified

variable {pod : Pod} {podStatus : PodStatus} {liveness startup : String → Option ProbeResult}

theorem StartJustified.mono {killed killed' : List String} {idx : ℕ}
    (h : StartJustified pod podStatus liveness startup killed idx) (hsub : ∀ k ∈ killed, k ∈ killed') :
    StartJustified pod podStatus liveness startup killed' idx := by
  obtain ⟨container, hc, hs⟩ := h
  refine ⟨container, hc, ?_⟩
  revert hs
  cases findContainerStatusByName podStatus container.name with
  | none => exact id
  | some s =>
    rintro (h | h | h | ⟨hrun, hkill, hwhy⟩)
    · exact .inl h
    · exact .inr (.inl h)
    · exact .inr (.inr (.inl h))
    · exact .inr (.inr (.inr ⟨hrun, hsub _ hkill, hwhy⟩))

/-- The one rule for a step of the loop: the starts it adds are justified, and it keeps every
killed ID. -/
theorem AllStartsJustified.extend {changes changes' : PodActions} {extra : List ℕ}
    (h : AllStartsJustified pod podStatus liveness startup changes)
    (hstart : changes'.containersToStart = changes.containersToStart ++ extra)
    (hkilled : ∀ k ∈ killedIDs changes, k ∈ killedIDs changes')
    (hextra : ∀ idx ∈ extra, StartJustified pod podStatus liveness startup (killedIDs changes') idx) :
    AllStartsJustified pod podStatus liveness startup changes' := by
  intro idx hidx
  rw [hstart, List.mem_append] at hidx
  rcases hidx with hidx | hidx
  · exact (h idx hidx).mono hkilled
  · exact hextra idx hidx

/-- A container that `ShouldContainerBeRestarted` is justified, whatever is killed. -/
theorem startJustified_of_shouldContainerBeRestarted {container : Container} {idx : ℕ}
    (killed : List String) (hc : pod.containers[idx]? = some container)
    (h : shouldContainerBeRestarted container pod podStatus = true) :
    StartJustified pod podStatus liveness startup killed idx := by
  refine ⟨container, hc, ?_⟩
  unfold shouldContainerBeRestarted at h
  split at h
  · cases h
  cases hfind : findContainerStatusByName podStatus container.name with
  | none => trivial
  | some s =>
    rw [hfind] at h
    cases hs : s.state <;> cases hp : pod.restartPolicy <;> simp_all

theorem restartContainerStep_containersToStart (container : Container) (idx : ℕ)
    (cs : Option Status) (changes : PodActions) :
    (restartContainerStep pod podStatus container idx cs changes).containersToStart =
      changes.containersToStart ++
        (if shouldContainerBeRestarted container pod podStatus then [idx] else []) := by
  unfold restartContainerStep
  split
  · split
    · split <;> rfl
    · rfl
  · exact (List.append_nil _).symm

theorem restartContainerStep_killed (container : Container) (idx : ℕ) (cs : Option Status)
    (changes : PodActions) :
    ∀ k ∈ killedIDs changes, k ∈ killedIDs (restartContainerStep pod podStatus container idx cs changes) := by
  intro k hk
  unfold restartContainerStep
  split
  · split
    · split
      · exact mem_map_fst_setKill.mpr (.inr hk)
      · exact hk
    · exact hk
  · exact hk

theorem killContainer_containersToStart (container : Container) (idx : ℕ) (cs : Status)
    (message : String) (reason : ContainerKillReason) (restart : Bool) (changes : PodActions) :
    (killContainer container idx cs message reason restart changes).containersToStart =
      changes.containersToStart ++ (if restart then [idx] else []) := by
  unfold killContainer
  cases restart <;> simp

theorem killContainer_killed (container : Container) (idx : ℕ) (cs : Status) (message : String)
    (reason : ContainerKillReason) (restart : Bool) (changes : PodActions) :
    ∀ k, k = cs.id ∨ k ∈ killedIDs changes →
      k ∈ killedIDs (killContainer container idx cs message reason restart changes) := by
  intro k hk
  unfold killContainer killedIDs
  cases restart <;> exact mem_map_fst_setKill.mpr hk

/-- A running container killed with the reason `why` and started again is justified. -/
theorem killContainer_justified {container : Container} {idx : ℕ} {cs : Status} {message : String}
    {reason : ContainerKillReason} {restart : Bool} {changes : PodActions}
    (h : AllStartsJustified pod podStatus liveness startup changes)
    (hc : pod.containers[idx]? = some container)
    (hfind : findContainerStatusByName podStatus container.name = some cs)
    (hrunning : cs.state = .running)
    (hwhy : restart = true → cs.hash ≠ container.hash ∨ pod.restartPolicy ≠ .never ∧
      (liveness cs.id = some .failure ∨ startup cs.id = some .failure)) :
    AllStartsJustified pod podStatus liveness startup
      (killContainer container idx cs message reason restart changes) := by
  have hkilled := killContainer_killed container idx cs message reason restart changes
  refine h.extend (killContainer_containersToStart ..) (fun k hk => hkilled k (.inr hk)) ?_
  intro i hi
  cases restart with
  | false => simp at hi
  | true =>
    obtain rfl : i = idx := by simpa using hi
    refine ⟨container, hc, ?_⟩
    rw [hfind]
    exact .inr (.inr (.inr ⟨hrunning, hkilled _ (.inl rfl), hwhy rfl⟩))

/-- **One turn of the container loop** keeps every start justified. -/
theorem containerStep_justified {acc : PodActions × ℕ} {entry : Container × ℕ}
    (hentry : pod.containers[entry.2]? = some entry.1)
    (h : AllStartsJustified pod podStatus liveness startup acc.1) :
    AllStartsJustified pod podStatus liveness startup
      (containerStep pod podStatus liveness startup acc entry).1 := by
  obtain ⟨container, idx⟩ := entry
  -- a container that is not running is started only if `ShouldContainerBeRestarted`
  have restarted : ∀ cs, AllStartsJustified pod podStatus liveness startup
      (restartContainerStep pod podStatus container idx cs acc.1) := by
    intro cs
    refine h.extend (restartContainerStep_containersToStart ..)
      (restartContainerStep_killed container idx cs acc.1) ?_
    intro i hi
    split at hi
    · obtain rfl : i = idx := by simpa using hi
      exact startJustified_of_shouldContainerBeRestarted _ hentry ‹_›
    · simp at hi
  unfold containerStep
  cases hfind : findContainerStatusByName podStatus container.name with
  | none => exact restarted none
  | some cs =>
    dsimp only
    split
    · rename_i hrunning
      unfold runningContainerStep
      split
      · exact killContainer_justified h hentry hfind hrunning fun _ => .inl ‹_›
      split
      · exact killContainer_justified h hentry hfind hrunning fun hr =>
          .inr ⟨by simpa [shouldRestartOnFailure] using hr, .inl ‹_›⟩
      split
      · exact killContainer_justified h hentry hfind hrunning fun hr =>
          .inr ⟨by simpa [shouldRestartOnFailure] using hr, .inr ‹_›⟩
      · exact h
    · exact restarted (some cs)

/-- **The container loop** keeps every start justified, over any of the spec's containers with
their indexes. -/
theorem foldl_containerStep_justified :
    ∀ (entries : List (Container × ℕ)) (acc : PodActions × ℕ),
      (∀ entry ∈ entries, pod.containers[entry.2]? = some entry.1) →
      AllStartsJustified pod podStatus liveness startup acc.1 →
      AllStartsJustified pod podStatus liveness startup
        (entries.foldl (containerStep pod podStatus liveness startup) acc).1
  | [], _, _, h => h
  | entry :: entries, _, hentries, h =>
    foldl_containerStep_justified entries _ (fun e he => hentries e (List.mem_cons_of_mem _ he))
      (containerStep_justified (hentries entry List.mem_cons_self) h)

theorem initActions_containersToStart (initLastStatus : Option Status) (next : Option Container)
    (changes : PodActions) :
    (initActions pod initLastStatus next changes).containersToStart = changes.containersToStart := by
  unfold initActions
  cases next with
  | none => rfl
  | some next =>
    dsimp only
    split
    · rfl
    · cases initLastStatus with
      | none => rfl
      | some status =>
        dsimp only
        split <;> rfl

end Justified

/-! ## `computePodActions` -/

section Compute

variable (ephemeralContainers : Bool) (liveness startup : String → Option ProbeResult) (pod : Pod)
  (podStatus : PodStatus)

theorem computePodActions_of_create {attempt : UInt32} {sandboxID : String}
    (h : podSandboxChanged pod podStatus = (true, attempt, sandboxID)) :
    computePodActions ephemeralContainers liveness startup pod podStatus =
      sandboxActions pod podStatus ⟨true, true, sandboxID, attempt, none, [], [], []⟩ := by
  simp only [computePodActions, h, if_true]

theorem computePodActions_of_kept {attempt : UInt32} {sandboxID : String}
    (h : podSandboxChanged pod podStatus = (false, attempt, sandboxID)) :
    computePodActions ephemeralContainers liveness startup pod podStatus =
      let changes := ephemeralActions ephemeralContainers pod podStatus
        ⟨false, false, sandboxID, attempt, none, [], [], []⟩
      if (findNextInitContainerToRun pod podStatus).2.2 then
        containerActions pod podStatus liveness startup changes
      else initActions pod (findNextInitContainerToRun pod podStatus).1
        (findNextInitContainerToRun pod podStatus).2.1 changes := by
  rcases hinit : findNextInitContainerToRun pod podStatus with ⟨initLastStatus, next, done⟩
  cases done <;> simp [computePodActions, h, hinit]

theorem ephemeralActions_containersToStart (changes : PodActions) :
    (ephemeralActions ephemeralContainers pod podStatus changes).containersToStart =
      changes.containersToStart := by
  unfold ephemeralActions
  split <;> rfl

theorem ephemeralActions_killedIDs (changes : PodActions) :
    killedIDs (ephemeralActions ephemeralContainers pod podStatus changes) = killedIDs changes := by
  unfold ephemeralActions
  split <;> rfl

/-- **With the sandbox kept, every start is justified.** Each index of `ContainersToStart` names a
container whose latest status is absent, created or unknown, or exited where the policy restarts
it, or running and killed for a changed spec or, unless the policy is `Never`, a failed probe. -/
theorem computePodActions_startJustified (hkept : (podSandboxChanged pod podStatus).1 = false) :
    AllStartsJustified pod podStatus liveness startup
      (computePodActions ephemeralContainers liveness startup pod podStatus) := by
  rcases hsandbox : podSandboxChanged pod podStatus with ⟨createPodSandbox, attempt, sandboxID⟩
  rw [hsandbox] at hkept
  obtain rfl : createPodSandbox = false := hkept
  rw [computePodActions_of_kept ephemeralContainers liveness startup pod podStatus hsandbox]
  set changes := ephemeralActions ephemeralContainers pod podStatus
    ⟨false, false, sandboxID, attempt, none, [], [], []⟩ with hchanges
  have hempty : changes.containersToStart = [] := ephemeralActions_containersToStart ..
  have hnone : AllStartsJustified pod podStatus liveness startup changes := by
    intro idx hidx
    simp [hempty] at hidx
  dsimp only
  split
  · have hloop := foldl_containerStep_justified pod.containers.zipIdx (changes, 0)
      (fun entry he => List.mem_zipIdx_iff_getElem?.mp he) hnone
    unfold containerActions
    dsimp only
    split
    · exact hloop
    · exact hloop
  · intro idx hidx
    rw [initActions_containersToStart, hempty] at hidx
    simp at hidx

theorem sandboxActions_of_containersToStart_ne_nil {changes : PodActions}
    (h : (sandboxActions pod podStatus changes).containersToStart ≠ [])
    (hempty : changes.containersToStart = []) :
    (sandboxActions pod podStatus changes).createSandbox = changes.createSandbox ∧
      pod.initContainers = [] := by
  unfold sandboxActions at h ⊢
  split at h
  · exact absurd hempty h
  rename_i hdone
  dsimp only at h ⊢
  split at h
  · exact absurd hempty h
  rename_i hstart
  split at h
  · exact absurd hempty h
  rename_i hinit
  simp only [hdone, hstart, hinit, if_false]
  exact ⟨trivial, not_not.mp hinit⟩

/-- **Regular containers wait for initialization.** `ContainersToStart` is non-empty only once
`findNextInitContainerToRun` reports done, or with a new sandbox for a pod without init
containers. -/
theorem computePodActions_containersToStart_ne_nil
    (hstart : (computePodActions ephemeralContainers liveness startup pod podStatus).containersToStart ≠ []) :
    (findNextInitContainerToRun pod podStatus).2.2 = true ∨
      ((computePodActions ephemeralContainers liveness startup pod podStatus).createSandbox = true ∧
        pod.initContainers = []) := by
  rcases hsandbox : podSandboxChanged pod podStatus with ⟨createPodSandbox, attempt, sandboxID⟩
  cases createPodSandbox with
  | true =>
    rw [computePodActions_of_create ephemeralContainers liveness startup pod podStatus hsandbox]
      at hstart ⊢
    exact .inr (sandboxActions_of_containersToStart_ne_nil pod podStatus hstart rfl)
  | false =>
    rw [computePodActions_of_kept ephemeralContainers liveness startup pod podStatus hsandbox]
      at hstart
    by_cases hdone : (findNextInitContainerToRun pod podStatus).2.2 = true
    · exact .inl hdone
    · -- before initialization is done, no regular container is started
      simp only [hdone, if_false, Bool.false_eq_true, initActions_containersToStart,
        ephemeralActions_containersToStart] at hstart
      exact absurd rfl hstart

end Compute

theorem mem_map_snd_filter_zipIdx {p : Container × ℕ → Bool} {l : List Container} {idx : ℕ} :
    idx ∈ (l.zipIdx.filter p).map Prod.snd ↔ ∃ c, l[idx]? = some c ∧ p (c, idx) = true := by
  simp only [List.mem_map, List.mem_filter, List.mem_zipIdx_iff_getElem?]
  constructor
  · rintro ⟨⟨c, i⟩, ⟨hc, hp⟩, rfl⟩
    exact ⟨c, hc, hp⟩
  · rintro ⟨c, hc, hp⟩
    exact ⟨(c, idx), ⟨hc, hp⟩, rfl⟩

/-- **With a new sandbox, the starts are not checked against the statuses.** A container is
started exactly when the pod has no init containers, is not a `Never` pod with a sandbox attempt
other than 0 and container statuses, and the container did not succeed under `OnFailure`. -/
theorem computePodActions_sandbox_containersToStart (ephemeralContainers : Bool)
    (liveness startup : String → Option ProbeResult) (pod : Pod) (podStatus : PodStatus)
    (hcreate : (podSandboxChanged pod podStatus).1 = true) (idx : ℕ) :
    idx ∈ (computePodActions ephemeralContainers liveness startup pod podStatus).containersToStart ↔
      pod.initContainers = [] ∧
        ¬(pod.restartPolicy = .never ∧ (podSandboxChanged pod podStatus).2.1 ≠ 0 ∧
          podStatus.containerStatuses ≠ []) ∧
        ∃ c, pod.containers[idx]? = some c ∧
          ¬(pod.restartPolicy = .onFailure ∧ containerSucceeded c podStatus = true) := by
  rcases hsandbox : podSandboxChanged pod podStatus with ⟨createPodSandbox, attempt, sandboxID⟩
  rw [hsandbox] at hcreate
  obtain rfl : createPodSandbox = true := hcreate
  rw [computePodActions_of_create ephemeralContainers liveness startup pod podStatus hsandbox]
  unfold sandboxActions
  have hnever : (!shouldRestartOnFailure pod) = true ↔ pod.restartPolicy = .never := by
    simp [shouldRestartOnFailure]
  by_cases hdone : (!shouldRestartOnFailure pod) = true ∧ attempt ≠ 0 ∧ podStatus.containerStatuses ≠ []
  · rw [if_pos hdone]
    simp only [List.not_mem_nil, false_iff]
    exact fun h => h.2.1 ⟨hnever.mp hdone.1, hdone.2⟩
  rw [if_neg hdone]
  have hdone' : ¬(pod.restartPolicy = .never ∧ attempt ≠ 0 ∧ podStatus.containerStatuses ≠ []) :=
    fun h => hdone ⟨hnever.mpr h.1, h.2⟩
  set toStart := (pod.containers.zipIdx.filter fun entry =>
    !(pod.restartPolicy = .onFailure ∧ containerSucceeded entry.1 podStatus)).map Prod.snd
    with htoStart
  have hmem : idx ∈ toStart ↔ ∃ c, pod.containers[idx]? = some c ∧
      ¬(pod.restartPolicy = .onFailure ∧ containerSucceeded c podStatus = true) := by
    rw [htoStart, mem_map_snd_filter_zipIdx]
    exact exists_congr fun c => and_congr_right fun _ => by
      cases containerSucceeded c podStatus <;> simp
  by_cases hinit : pod.initContainers = []
  · by_cases hempty : toStart = [] ∧ (findNextInitContainerToRun pod podStatus).2.2 = true
    · rw [if_pos hempty]
      simp only [List.not_mem_nil, false_iff]
      rintro ⟨-, -, hc⟩
      exact absurd (hmem.mpr hc) (hempty.1 ▸ List.not_mem_nil)
    · rw [if_neg hempty, if_neg (by simpa using hinit)]
      simp only [hmem, hinit, hdone', not_false_eq_true, true_and]
  · by_cases hempty : toStart = [] ∧ (findNextInitContainerToRun pod podStatus).2.2 = true
    · rw [if_pos hempty]
      simp [hinit]
    · rw [if_neg hempty, if_pos hinit]
      simp [hinit]

/-- A container of a `Never` pod that ran and exited. -/
def exitedApp : Status := ⟨"containerd://app", "app", .exited, 0, 7⟩

/-- A `Never` pod with one container and no init containers. -/
def completedNeverPod : Pod := ⟨.never, [⟨"app", 7⟩], [], [], false, false⟩

/-- **A `Never` pod's exited container is started again.** The pod's sandbox is gone, so a new one
is created with attempt 0, which the check of a `Never` pod that already ran lets through: its
one container, whose latest status is exited, is started again. -/
theorem computePodActions_restarts_exited_never :
    findContainerStatusByName ⟨[], [exitedApp]⟩ "app" = some exitedApp ∧
      computePodActions false (fun _ => none) (fun _ => none) completedNeverPod ⟨[], [exitedApp]⟩ =
        ⟨true, true, "", 0, none, [0], [], []⟩ := by
  decide

end Kubernetes.KubeRuntime
