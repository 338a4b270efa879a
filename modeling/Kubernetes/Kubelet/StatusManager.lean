import Mathlib

/-!
# The kubelet's status manager

`pkg/kubelet/status/status_manager.go`: the cache of each pod's latest status that the kubelet
patches to the API server. Every write to the cache goes through `updateStatusInternal`, whose
one guard, `checkContainerStateTransition`, compares the previous and the new container lists
name by name: a container shown as terminated, where the restart policy does not let it restart,
must not be listed as anything but terminated in the next status. Nothing compares the phases.

* `checkContainerStateTransition_eq_none_iff`: the guard, as a statement over both lists.
* `updateStatusInternal_cases`: every update keeps the cache, or writes the new status, normalized,
  having passed the guard against the status it replaces.
* `applyUpdate_keeps_terminated`: so one update never shows such a container running.
* `runUpdates_keeps_terminated`: under `RestartPolicyNever`, a terminated container stays
  terminated over a whole run, as long as every status set lists it.
* `terminatePod_of_cached`: `TerminatePod` always passes the guard against the cache, and leaves no
  container running.
* `runUpdates_leaves_terminal_phase`: a cached `Failed` pod becomes `Running` again, and its
  container, terminated under `RestartPolicyNever`, running, once a status omits it.

The model is one pod's entry of `podStatuses`. The conditions, the times and the messages of a
status are left out: `updateLastTransitionTime`, the start time and the rest of `normalizeStatus`
touch only them, and `isPodStatusByKubeletEqual` compares the rest, which is equality here. The
channel to `syncPod` is left out too; the cache is what it patches.
-/

namespace Kubernetes.StatusManager

/-- `v1.PodPhase`. -/
inductive PodPhase
  | pending
  | running
  | succeeded
  | failed
  | unknown
  deriving DecidableEq, Repr

/-- `v1.RestartPolicy`. -/
inductive RestartPolicy
  | always
  | onFailure
  | never
  deriving DecidableEq, Repr

/-- `v1.ContainerState`, of which at most one member is set; `unset` is the zero value. -/
inductive ContainerState
  | unset
  | waiting
  | running
  | terminated (exitCode : ℤ)
  deriving DecidableEq, Repr

/-- `State.Terminated != nil`. -/
def ContainerState.isTerminated : ContainerState → Bool
  | .terminated _ => true
  | _ => false

/-- `v1.ContainerStatus`. -/
structure ContainerStatus where
  name : String
  containerID : String
  state : ContainerState
  ready : Bool
  started : Option Bool
  deriving DecidableEq, Repr

/-- `v1.PodStatus`. -/
structure PodStatus where
  phase : PodPhase
  containerStatuses : List ContainerStatus
  initContainerStatuses : List ContainerStatus
  deriving DecidableEq, Repr

/-- The `v1.Pod` an update is made for: its restart policy, the names of its init containers,
whether its `DeletionTimestamp` is set, and its status as the pod manager has it. -/
structure Pod where
  restartPolicy : RestartPolicy
  initContainers : List String
  deletionTimestampSet : Bool
  status : PodStatus

/-- `versionedPodStatus`: a cached status and its version. -/
structure VersionedPodStatus where
  status : PodStatus
  version : ℕ
  deriving DecidableEq, Repr

/-! ## `updateStatusInternal` -/

/-- The error of `checkContainerStateTransition`. -/
def illegalTransitionError (name : String) : String :=
  "terminated container " ++ name ++ " attempted illegal transition to non-terminated state"

/-- `checkContainerStateTransition(oldStatuses, newStatuses, restartPolicy)`. -/
def checkContainerStateTransition (oldStatuses newStatuses : List ContainerStatus)
    (restartPolicy : RestartPolicy) : Option String :=
  if restartPolicy = .always then none
  else
    oldStatuses.findSome? fun oldStatus =>
      match oldStatus.state with
      | .terminated exitCode =>
        if exitCode ≠ 0 ∧ restartPolicy = .onFailure then none
        else
          newStatuses.findSome? fun newStatus =>
            if oldStatus.name = newStatus.name ∧ !newStatus.state.isTerminated then
              some (illegalTransitionError newStatus.name)
            else none
      | _ => none

/-- `SortInitContainerStatuses(p, statuses)`: for each init container of the spec, in order, the
first status of that name from `current` on is swapped to `current`, which moves on. -/
def sortInitContainerStatuses : List String → List ContainerStatus → List ContainerStatus
  | [], statuses => statuses
  | name :: containers, statuses =>
    match statuses.findIdx? (fun s => s.name == name), statuses with
    | some j, first :: rest =>
      (first :: rest).getD j first ::
        sortInitContainerStatuses containers ((first :: rest).set j first).tail
    | _, _ => sortInitContainerStatuses containers statuses

/-- What `normalizeStatus` does to the fields modelled: the container statuses sorted by name,
the init container statuses in the spec's order. -/
def normalizeStatus (pod : Pod) (status : PodStatus) : PodStatus :=
  { status with
    containerStatuses := status.containerStatuses.insertionSort fun a b => a.name ≤ b.name
    initContainerStatuses :=
      sortInitContainerStatuses pod.initContainers status.initContainerStatuses }

/-- The status `updateStatusInternal` compares with: the cached one, else the mirror pod's, else
the pod's. -/
def oldStatusOf (pod : Pod) (mirrorStatus : Option PodStatus) :
    Option VersionedPodStatus → PodStatus
  | some cachedStatus => cachedStatus.status
  | none => mirrorStatus.getD pod.status

/-- `updateStatusInternal(pod, status, forceUpdate)` on the pod's entry of the cache, with
`mirrorStatus` the status of the pod's mirror pod, where it has one. -/
def updateStatusInternal (pod : Pod) (mirrorStatus : Option PodStatus) (status : PodStatus)
    (forceUpdate : Bool) (cache : Option VersionedPodStatus) : Option VersionedPodStatus :=
  let oldStatus := oldStatusOf pod mirrorStatus cache
  if (checkContainerStateTransition oldStatus.containerStatuses status.containerStatuses
      pod.restartPolicy).isSome then cache
  else if (checkContainerStateTransition oldStatus.initContainerStatuses
      status.initContainerStatuses pod.restartPolicy).isSome then cache
  else
    let status := normalizeStatus pod status
    match cache with
    | some cachedStatus =>
      if cachedStatus.status = status ∧ !forceUpdate then cache
      else some ⟨status, cachedStatus.version + 1⟩
    | none => some ⟨status, 1⟩

/-! ## The updates -/

/-- `SetPodStatus(pod, status)`: an update forced when the pod is being deleted. -/
def setPodStatus (pod : Pod) (mirrorStatus : Option PodStatus) (status : PodStatus)
    (cache : Option VersionedPodStatus) : Option VersionedPodStatus :=
  updateStatusInternal pod mirrorStatus status pod.deletionTimestampSet cache

/-- The state `TerminatePod` gives a container neither terminated nor waiting. -/
def terminateContainerStatus (c : ContainerStatus) : ContainerStatus :=
  match c.state with
  | .terminated _ | .waiting => c
  | _ => { c with state := .terminated 137 }

/-- `TerminatePod(pod)`: from the cached status, else the pod's, every container neither
terminated nor waiting is terminated, and the update is forced. -/
def terminatePod (pod : Pod) (mirrorStatus : Option PodStatus)
    (cache : Option VersionedPodStatus) : Option VersionedPodStatus :=
  let oldStatus := match cache with
    | some cachedStatus => cachedStatus.status
    | none => pod.status
  let status := { oldStatus with
    containerStatuses := oldStatus.containerStatuses.map terminateContainerStatus
    initContainerStatuses := oldStatus.initContainerStatuses.map terminateContainerStatus }
  updateStatusInternal pod mirrorStatus status true cache

/-- `findContainerStatus(status, containerID)`: the first status with the ID among the
containers, else among the init containers. -/
def findContainerStatus (status : PodStatus) (containerID : String) : Option ContainerStatus :=
  (status.containerStatuses.find? fun c => c.containerID = containerID).or
    (status.initContainerStatuses.find? fun c => c.containerID = containerID)

/-- The copy of `status` in which the status `findContainerStatus` finds is changed by `f`. -/
def modifyContainerStatus (status : PodStatus) (containerID : String)
    (f : ContainerStatus → ContainerStatus) : PodStatus :=
  let update := fun c : ContainerStatus => if c.containerID = containerID then some (f c) else none
  if status.containerStatuses.any fun c => c.containerID = containerID then
    { status with containerStatuses := status.containerStatuses.replaceF update }
  else { status with initContainerStatuses := status.initContainerStatuses.replaceF update }

/-- The common body of `SetContainerReadiness` and `SetContainerStartup`, with `podByUID` what
the pod manager returns: nothing happens unless the pod is known and cached, the container is
found, and its field is not already the value; then the changed copy of the cached status is
set. -/
def setContainerField (unchanged : ContainerStatus → Bool) (f : ContainerStatus → ContainerStatus)
    (podByUID : Option Pod) (mirrorStatus : Option PodStatus) (containerID : String)
    (cache : Option VersionedPodStatus) : Option VersionedPodStatus :=
  match podByUID, cache with
  | some pod, some oldStatus =>
    match findContainerStatus oldStatus.status containerID with
    | some containerStatus =>
      if unchanged containerStatus then cache
      else
        updateStatusInternal pod mirrorStatus
          (modifyContainerStatus oldStatus.status containerID f) false cache
    | none => cache
  | _, _ => cache

/-- `SetContainerReadiness(podUID, containerID, ready)`. -/
def setContainerReadiness (podByUID : Option Pod) (mirrorStatus : Option PodStatus)
    (containerID : String) (ready : Bool) (cache : Option VersionedPodStatus) :
    Option VersionedPodStatus :=
  setContainerField (fun c => c.ready == ready) (fun c => { c with ready := ready })
    podByUID mirrorStatus containerID cache

/-- `SetContainerStartup(podUID, containerID, started)`. -/
def setContainerStartup (podByUID : Option Pod) (mirrorStatus : Option PodStatus)
    (containerID : String) (started : Bool) (cache : Option VersionedPodStatus) :
    Option VersionedPodStatus :=
  setContainerField (fun c => c.started == some started) (fun c => { c with started := some started })
    podByUID mirrorStatus containerID cache

/-- The calls that update a pod's status. -/
inductive Update
  | setPodStatus (status : PodStatus)
  | terminatePod
  | setContainerReadiness (containerID : String) (ready : Bool)
  | setContainerStartup (containerID : String) (started : Bool)

/-- One update of the pod's entry, by a pod the pod manager knows. -/
def applyUpdate (pod : Pod) (mirrorStatus : Option PodStatus) (cache : Option VersionedPodStatus) :
    Update → Option VersionedPodStatus
  | .setPodStatus status => setPodStatus pod mirrorStatus status cache
  | .terminatePod => terminatePod pod mirrorStatus cache
  | .setContainerReadiness containerID ready =>
    setContainerReadiness (some pod) mirrorStatus containerID ready cache
  | .setContainerStartup containerID started =>
    setContainerStartup (some pod) mirrorStatus containerID started cache

/-- A run of updates. -/
def runUpdates (pod : Pod) (mirrorStatus : Option PodStatus) (cache : Option VersionedPodStatus)
    (updates : List Update) : Option VersionedPodStatus :=
  updates.foldl (applyUpdate pod mirrorStatus) cache

/-! ## The guard -/

/-- A container status that `checkContainerStateTransition` holds to: terminated, and not to be
restarted, under `RestartPolicyNever`, or under `RestartPolicyOnFailure` with exit code 0. -/
def RestartForbidden (restartPolicy : RestartPolicy) (c : ContainerStatus) : Prop :=
  ∃ exitCode, c.state = .terminated exitCode ∧
    (restartPolicy = .never ∨ restartPolicy = .onFailure ∧ exitCode = 0)

/-- No status of `newStatuses` shows a container of `oldStatuses` held terminated as anything
else. -/
def KeepsTerminated (restartPolicy : RestartPolicy) (oldStatuses newStatuses : List ContainerStatus) :
    Prop :=
  ∀ o ∈ oldStatuses, RestartForbidden restartPolicy o →
    ∀ n ∈ newStatuses, n.name = o.name → n.state.isTerminated

theorem checkContainerStateTransition_eq_none_iff (oldStatuses newStatuses : List ContainerStatus)
    (restartPolicy : RestartPolicy) :
    checkContainerStateTransition oldStatuses newStatuses restartPolicy = none ↔
      KeepsTerminated restartPolicy oldStatuses newStatuses := by
  unfold checkContainerStateTransition KeepsTerminated RestartForbidden
  by_cases halways : restartPolicy = .always
  · simp [halways]
  rw [if_neg halways, List.findSome?_eq_none_iff]
  refine forall₂_congr fun o _ => ?_
  cases hstate : o.state with
  | terminated exitCode =>
    simp only [ContainerState.terminated.injEq, exists_eq_left']
    by_cases hskip : exitCode ≠ 0 ∧ restartPolicy = .onFailure
    · rw [if_pos hskip]
      simp only [true_iff]
      rintro (hnever | ⟨-, hzero⟩)
      · exact absurd (hnever ▸ hskip.2) (by decide)
      · exact absurd hzero hskip.1
    · have hforbid : restartPolicy = .never ∨ restartPolicy = .onFailure ∧ exitCode = 0 := by
        cases restartPolicy <;> simp_all
      rw [if_neg hskip, List.findSome?_eq_none_iff]
      simp only [hforbid, forall_const]
      refine forall₂_congr fun n _ => ?_
      by_cases hname : o.name = n.name <;> simp [hname, Ne.symm]
  | _ => simp

/-! ## Normalization keeps the containers -/

/-- Swapping the head `first` with the status at `k + 1` is a permutation. -/
theorem perm_cons_set {α : Type*} (first : α) :
    ∀ (rest : List α) (k : ℕ) (hk : k < rest.length),
      (rest[k] :: rest.set k first).Perm (first :: rest)
  | r :: rest, 0, _ => List.Perm.swap first r rest
  | r :: rest, k + 1, hk => by
    have hk' : k < rest.length := by simpa using hk
    have ih := perm_cons_set first rest k hk'
    show List.Perm (rest[k] :: r :: rest.set k first) (first :: r :: rest)
    exact (List.Perm.swap _ _ _).trans ((ih.cons r).trans (List.Perm.swap _ _ _))

theorem perm_sortInitContainerStatuses :
    ∀ (containers : List String) (statuses : List ContainerStatus),
      (sortInitContainerStatuses containers statuses).Perm statuses
  | [], _ => List.Perm.refl _
  | name :: containers, statuses => by
    unfold sortInitContainerStatuses
    split
    · rename_i j first rest hj
      have hlt : j < rest.length + 1 := by
        simpa using (List.findIdx?_eq_some_iff_getElem.mp hj).1
      refine ((perm_sortInitContainerStatuses containers _).cons _).trans ?_
      cases j with
      | zero => simp
      | succ k =>
        have hk : k < rest.length := by omega
        simpa [List.getD_eq_getElem?_getD, hk] using perm_cons_set first rest k hk
    · exact perm_sortInitContainerStatuses containers _

theorem keepsTerminated_of_perm {restartPolicy : RestartPolicy}
    {oldStatuses newStatuses newStatuses' : List ContainerStatus}
    (h : KeepsTerminated restartPolicy oldStatuses newStatuses) (hperm : newStatuses'.Perm newStatuses) :
    KeepsTerminated restartPolicy oldStatuses newStatuses' :=
  fun o ho hforbid n hn => h o ho hforbid n (hperm.mem_iff.mp hn)

@[simp]
theorem normalizeStatus_phase (pod : Pod) (status : PodStatus) :
    (normalizeStatus pod status).phase = status.phase := rfl

theorem perm_normalizeStatus_containerStatuses (pod : Pod) (status : PodStatus) :
    (normalizeStatus pod status).containerStatuses.Perm status.containerStatuses :=
  List.perm_insertionSort _ _

theorem perm_normalizeStatus_initContainerStatuses (pod : Pod) (status : PodStatus) :
    (normalizeStatus pod status).initContainerStatuses.Perm status.initContainerStatuses :=
  perm_sortInitContainerStatuses _ _

/-! ## Every write passes the guard -/

/-- **`updateStatusInternal`.** The cache is kept, or the new status, normalized, is written, and
then it passed the guard against the status it was compared with, on both container lists. -/
theorem updateStatusInternal_cases (pod : Pod) (mirrorStatus : Option PodStatus)
    (status : PodStatus) (forceUpdate : Bool) (cache : Option VersionedPodStatus) :
    updateStatusInternal pod mirrorStatus status forceUpdate cache = cache ∨
      KeepsTerminated pod.restartPolicy (oldStatusOf pod mirrorStatus cache).containerStatuses
          status.containerStatuses ∧
        KeepsTerminated pod.restartPolicy (oldStatusOf pod mirrorStatus cache).initContainerStatuses
          status.initContainerStatuses ∧
        ∃ version, updateStatusInternal pod mirrorStatus status forceUpdate cache =
          some ⟨normalizeStatus pod status, version⟩ := by
  unfold updateStatusInternal
  dsimp only
  by_cases hcontainers : (checkContainerStateTransition
      (oldStatusOf pod mirrorStatus cache).containerStatuses status.containerStatuses
      pod.restartPolicy).isSome
  · exact .inl (if_pos hcontainers)
  by_cases hinit : (checkContainerStateTransition
      (oldStatusOf pod mirrorStatus cache).initContainerStatuses status.initContainerStatuses
      pod.restartPolicy).isSome
  · exact .inl (by rw [if_neg hcontainers, if_pos hinit])
  rw [if_neg hcontainers, if_neg hinit]
  have hkeeps := (checkContainerStateTransition_eq_none_iff _ _ _).mp
    (Option.not_isSome_iff_eq_none.mp hcontainers)
  have hkeepsInit := (checkContainerStateTransition_eq_none_iff _ _ _).mp
    (Option.not_isSome_iff_eq_none.mp hinit)
  cases cache with
  | none => exact .inr ⟨hkeeps, hkeepsInit, 1, rfl⟩
  | some cachedStatus =>
    -- an equal status, not forced, is not written again
    by_cases hsame : cachedStatus.status = normalizeStatus pod status ∧ !forceUpdate
    · exact .inl (if_pos hsame)
    · exact .inr ⟨hkeeps, hkeepsInit, _, if_neg hsame⟩

theorem terminateContainerStatus_name (c : ContainerStatus) :
    (terminateContainerStatus c).name = c.name := by
  unfold terminateContainerStatus
  split <;> rfl

theorem map_name_replaceF {g : ContainerStatus → Option ContainerStatus}
    (hg : ∀ a b, g a = some b → b.name = a.name) :
    ∀ l : List ContainerStatus, (l.replaceF g).map ContainerStatus.name = l.map ContainerStatus.name
  | [] => rfl
  | a :: l => by
    unfold List.replaceF
    cases h : g a with
    | none => simp [map_name_replaceF hg l]
    | some b => simp [hg a b h]

/-- Changing a field other than the name keeps the containers' names. -/
theorem map_name_modifyContainerStatus (status : PodStatus) (containerID : String)
    {f : ContainerStatus → ContainerStatus} (hf : ∀ c, (f c).name = c.name) :
    (modifyContainerStatus status containerID f).containerStatuses.map ContainerStatus.name =
      status.containerStatuses.map ContainerStatus.name := by
  unfold modifyContainerStatus
  split
  · refine map_name_replaceF (fun a b h => ?_) _
    split at h
    · cases h
      exact hf a
    · cases h
  · rfl

theorem setContainerField_cases (unchanged : ContainerStatus → Bool)
    (f : ContainerStatus → ContainerStatus) (pod : Pod) (mirrorStatus : Option PodStatus)
    (containerID : String) (c : VersionedPodStatus) :
    setContainerField unchanged f (some pod) mirrorStatus containerID (some c) = some c ∨
      setContainerField unchanged f (some pod) mirrorStatus containerID (some c) =
        updateStatusInternal pod mirrorStatus (modifyContainerStatus c.status containerID f) false
          (some c) := by
  unfold setContainerField
  dsimp only
  cases findContainerStatus c.status containerID with
  | none => exact .inl rfl
  | some containerStatus =>
    by_cases hunchanged : unchanged containerStatus
    · exact .inl (if_pos hunchanged)
    · exact .inr (if_neg hunchanged)

/-- **One update.** From a cached status, an update keeps it, or writes a new status, normalized,
that passed the guard against it. The new status is the one set by `SetPodStatus`; any other
update lists the containers of the cached status under the same names. -/
theorem applyUpdate_cases (pod : Pod) (mirrorStatus : Option PodStatus) (c : VersionedPodStatus)
    (u : Update) :
    applyUpdate pod mirrorStatus (some c) u = some c ∨
      ∃ status version, applyUpdate pod mirrorStatus (some c) u =
          some ⟨normalizeStatus pod status, version⟩ ∧
        KeepsTerminated pod.restartPolicy c.status.containerStatuses status.containerStatuses ∧
        KeepsTerminated pod.restartPolicy c.status.initContainerStatuses
          status.initContainerStatuses ∧
        (u = .setPodStatus status ∨ status.containerStatuses.map ContainerStatus.name =
          c.status.containerStatuses.map ContainerStatus.name) := by
  have written : ∀ status forceUpdate,
      (u = .setPodStatus status ∨ status.containerStatuses.map ContainerStatus.name =
        c.status.containerStatuses.map ContainerStatus.name) →
      applyUpdate pod mirrorStatus (some c) u =
        updateStatusInternal pod mirrorStatus status forceUpdate (some c) →
      applyUpdate pod mirrorStatus (some c) u = some c ∨
      ∃ status' version, applyUpdate pod mirrorStatus (some c) u =
          some ⟨normalizeStatus pod status', version⟩ ∧
        KeepsTerminated pod.restartPolicy c.status.containerStatuses status'.containerStatuses ∧
        KeepsTerminated pod.restartPolicy c.status.initContainerStatuses
          status'.initContainerStatuses ∧
        (u = .setPodStatus status' ∨ status'.containerStatuses.map ContainerStatus.name =
          c.status.containerStatuses.map ContainerStatus.name) := by
    intro status forceUpdate hnames hu
    rw [hu]
    rcases updateStatusInternal_cases pod mirrorStatus status forceUpdate (some c) with
      hkept | ⟨hkeeps, hkeepsInit, version, hwritten⟩
    · exact .inl hkept
    · exact .inr ⟨status, version, hwritten, hkeeps, hkeepsInit, hnames⟩
  cases u with
  | setPodStatus status => exact written status _ (.inl rfl) rfl
  | terminatePod =>
    refine written _ true (.inr ?_) rfl
    simp [List.map_map, Function.comp_def, terminateContainerStatus_name]
  | setContainerReadiness containerID ready =>
    rcases setContainerField_cases _ _ pod mirrorStatus containerID c with hkept | hwritten
    · exact .inl hkept
    · refine written _ false (.inr ?_) hwritten
      exact map_name_modifyContainerStatus _ _ fun _ => rfl
  | setContainerStartup containerID started =>
    rcases setContainerField_cases _ _ pod mirrorStatus containerID c with hkept | hwritten
    · exact .inl hkept
    · refine written _ false (.inr ?_) hwritten
      exact map_name_modifyContainerStatus _ _ fun _ => rfl

/-- **The guard holds of every step.** An update that changes a cached status writes one in which
no container the old one shows as terminated, without a restart allowed, is listed as anything
but terminated, among the containers and among the init containers. -/
theorem applyUpdate_keeps_terminated (pod : Pod) (mirrorStatus : Option PodStatus)
    {c c' : VersionedPodStatus} {u : Update} (h : applyUpdate pod mirrorStatus (some c) u = some c')
    (hchanged : c' ≠ c) :
    KeepsTerminated pod.restartPolicy c.status.containerStatuses c'.status.containerStatuses ∧
      KeepsTerminated pod.restartPolicy c.status.initContainerStatuses
        c'.status.initContainerStatuses := by
  rcases applyUpdate_cases pod mirrorStatus c u with hkept | ⟨status, version, hwritten, hkeeps,
    hkeepsInit, -⟩
  · exact absurd (Option.some.inj (h.symm.trans hkept)) hchanged
  · obtain rfl := Option.some.inj (h.symm.trans hwritten)
    exact ⟨keepsTerminated_of_perm hkeeps (perm_normalizeStatus_containerStatuses pod status),
      keepsTerminated_of_perm hkeepsInit (perm_normalizeStatus_initContainerStatuses pod status)⟩

/-! ## A run under `RestartPolicyNever` -/

/-- The status lists a container of the name, and shows every container of the name as
terminated. -/
def ShowsTerminated (name : String) (status : PodStatus) : Prop :=
  (∃ n ∈ status.containerStatuses, n.name = name) ∧
    ∀ n ∈ status.containerStatuses, n.name = name → n.state.isTerminated

/-- An update whose status, if it sets one, lists a container of the name. -/
def Update.Lists (name : String) : Update → Prop
  | .setPodStatus status => ∃ n ∈ status.containerStatuses, n.name = name
  | _ => True

theorem applyUpdate_showsTerminated {pod : Pod} (hnever : pod.restartPolicy = .never)
    (mirrorStatus : Option PodStatus) {name : String} {c : VersionedPodStatus} {u : Update}
    (hshows : ShowsTerminated name c.status) (hlists : u.Lists name) :
    ∃ c', applyUpdate pod mirrorStatus (some c) u = some c' ∧ ShowsTerminated name c'.status := by
  rcases applyUpdate_cases pod mirrorStatus c u with hkept | ⟨status, version, hwritten, hkeeps,
    -, hnames⟩
  · exact ⟨c, hkept, hshows⟩
  refine ⟨_, hwritten, ?_, fun n hn hname => ?_⟩
  · -- the new status lists the container: `SetPodStatus` by `hlists`, the others by its names
    have hlisted : ∃ n ∈ status.containerStatuses, n.name = name := by
      rcases hnames with rfl | hnames
      · exact hlists
      · have hmem : name ∈ c.status.containerStatuses.map ContainerStatus.name := by
          obtain ⟨o, ho, hname⟩ := hshows.1
          exact List.mem_map.mpr ⟨o, ho, hname⟩
        rw [← hnames] at hmem
        simpa using hmem
    obtain ⟨n, hn, hname⟩ := hlisted
    exact ⟨n, (perm_normalizeStatus_containerStatuses pod status).mem_iff.mpr hn, hname⟩
  · -- under `RestartPolicyNever` every terminated container is held by the guard
    obtain ⟨o, ho, rfl⟩ := hshows.1
    have hforbid : RestartForbidden pod.restartPolicy o := by
      have hterm := hshows.2 o ho rfl
      cases hstate : o.state with
      | terminated exitCode => exact ⟨exitCode, hstate, .inl hnever⟩
      | _ => simp [hstate, ContainerState.isTerminated] at hterm
    exact hkeeps o ho hforbid n
      ((perm_normalizeStatus_containerStatuses pod status).mem_iff.mp hn) hname

/-- **A terminated container stays terminated, under `RestartPolicyNever`.** From a cached status
that shows a container as terminated, a run of updates, each status set listing the container,
ends with a cached status that shows it terminated. -/
theorem runUpdates_keeps_terminated {pod : Pod} (hnever : pod.restartPolicy = .never)
    (mirrorStatus : Option PodStatus) (name : String) :
    ∀ (updates : List Update) (c : VersionedPodStatus), ShowsTerminated name c.status →
      (∀ u ∈ updates, u.Lists name) →
      ∃ c', runUpdates pod mirrorStatus (some c) updates = some c' ∧ ShowsTerminated name c'.status
  | [], c, hshows, _ => ⟨c, rfl, hshows⟩
  | u :: updates, c, hshows, hlists => by
    obtain ⟨c', hstep, hshows'⟩ := applyUpdate_showsTerminated hnever mirrorStatus hshows
      (hlists u List.mem_cons_self)
    have hrun := runUpdates_keeps_terminated hnever mirrorStatus name updates c' hshows'
      (fun u' hu' => hlists u' (List.mem_cons_of_mem u hu'))
    rw [runUpdates, List.foldl_cons, hstep]
    exact hrun

/-! ## `TerminatePod` -/

theorem keepsTerminated_map_terminateContainerStatus (restartPolicy : RestartPolicy)
    {l : List ContainerStatus} (hnodup : (l.map ContainerStatus.name).Nodup) :
    KeepsTerminated restartPolicy l (l.map terminateContainerStatus) := by
  intro o ho hforbid n hn hname
  obtain ⟨o', ho', rfl⟩ := List.mem_map.mp hn
  obtain rfl : o' = o := List.inj_on_of_nodup_map hnodup ho' ho
    (by rwa [terminateContainerStatus_name] at hname)
  obtain ⟨exitCode, hstate, -⟩ := hforbid
  simp [terminateContainerStatus, hstate, ContainerState.isTerminated]

theorem terminateContainerStatus_state (c : ContainerStatus) :
    (terminateContainerStatus c).state = .waiting ∨ (terminateContainerStatus c).state.isTerminated := by
  unfold terminateContainerStatus
  split <;> simp_all [ContainerState.isTerminated]

/-- **`TerminatePod` is never refused by a cached status.** Where the cached status lists each
container once, `TerminatePod` writes a new version, in which every container is waiting or
terminated. -/
theorem terminatePod_of_cached (pod : Pod) (mirrorStatus : Option PodStatus) (c : VersionedPodStatus)
    (hnodup : (c.status.containerStatuses.map ContainerStatus.name).Nodup)
    (hnodupInit : (c.status.initContainerStatuses.map ContainerStatus.name).Nodup) :
    ∃ c', terminatePod pod mirrorStatus (some c) = some c' ∧ c'.version = c.version + 1 ∧
      ∀ n ∈ c'.status.containerStatuses ++ c'.status.initContainerStatuses,
        n.state = .waiting ∨ n.state.isTerminated := by
  have hcheck : checkContainerStateTransition c.status.containerStatuses
      (c.status.containerStatuses.map terminateContainerStatus) pod.restartPolicy = none :=
    (checkContainerStateTransition_eq_none_iff _ _ _).mpr
      (keepsTerminated_map_terminateContainerStatus _ hnodup)
  have hcheckInit : checkContainerStateTransition c.status.initContainerStatuses
      (c.status.initContainerStatuses.map terminateContainerStatus) pod.restartPolicy = none :=
    (checkContainerStateTransition_eq_none_iff _ _ _).mpr
      (keepsTerminated_map_terminateContainerStatus _ hnodupInit)
  let status : PodStatus := { c.status with
    containerStatuses := c.status.containerStatuses.map terminateContainerStatus
    initContainerStatuses := c.status.initContainerStatuses.map terminateContainerStatus }
  refine ⟨⟨normalizeStatus pod status, c.version + 1⟩, ?_, rfl, fun n hn => ?_⟩
  · -- the update is forced, so it is written even where nothing changed
    simp only [terminatePod, updateStatusInternal, oldStatusOf, hcheck, hcheckInit,
      Option.isSome_none, Bool.false_eq_true, if_false, Bool.not_true, and_false]
    rfl
  · have hmem : n ∈ status.containerStatuses ++ status.initContainerStatuses := by
      rcases List.mem_append.mp hn with hn | hn
      · exact List.mem_append_left _
          ((perm_normalizeStatus_containerStatuses pod status).mem_iff.mp hn)
      · exact List.mem_append_right _
          ((perm_normalizeStatus_initContainerStatuses pod status).mem_iff.mp hn)
    simp only [status, ← List.map_append, List.mem_map] at hmem
    obtain ⟨o, -, rfl⟩ := hmem
    exact terminateContainerStatus_state o

/-! ## The phase and the containers of a terminated pod -/

/-- A container that ran to completion. -/
def appExited : ContainerStatus := ⟨"app", "containerd://app", .terminated 0, false, some false⟩

/-- The same container, running. -/
def appRunning : ContainerStatus := ⟨"app", "containerd://app", .running, true, some true⟩

/-- A pod that never restarts its containers, not being deleted. -/
def neverRestartedPod : Pod := ⟨.never, [], false, ⟨.failed, [appExited], []⟩⟩

/-- **A terminal phase is left, and a terminated container runs again.** The cached status is
`Failed`, its one container terminated under `RestartPolicyNever`. A status `Running` that omits
the container passes the guard, which compares containers only; then a status that shows it
running passes too, since the cached status no longer lists it. -/
theorem runUpdates_leaves_terminal_phase :
    runUpdates neverRestartedPod none (some ⟨⟨.failed, [appExited], []⟩, 1⟩)
      [.setPodStatus ⟨.running, [], []⟩, .setPodStatus ⟨.running, [appRunning], []⟩] =
      some ⟨⟨.running, [appRunning], []⟩, 3⟩ := by
  decide

end Kubernetes.StatusManager
