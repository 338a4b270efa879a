import Mathlib
import Kubernetes.TopologyManager.Policy

/-!
# The topology manager's scope: the hint store

The pod and container scopes (`scope.go`, `scope_pod.go`, `scope_container.go`) keep the hint
`Admit` chose for each container, by pod UID and container name (`podTopologyHints`); the CPU and
memory managers read it back through `GetAffinity`. `AddContainer(pod, containerID)` records the
pod of a container ID (`podMap`), and `RemoveContainer(containerID)` is meant to drop the
container's hint: it looks up the pod of the ID, deletes the pod's entry under the key
`containerID`, and the pod's map once it is empty.

The store's inner maps are keyed by container names, and `RemoveContainer` deletes under a
container ID. `isSome_hintEntry_run`: along any run of `Admit`, `AddContainer` and
`RemoveContainer` calls, a container's hint stays in the store unless some `RemoveContainer` is
given the container's name as an ID; so a pod's entry outlives its containers
(`removeContainer_keeps_hints`).

What `Admit` learns outside the scope, the policy's name, its `Merge` of the providers' hints and
the providers' `Allocate`, is a parameter of each call (`Providers`); both scopes' `Admit` run one
loop over the pod's containers (`admitContainers`), with one hint for the pod or one per
container.
-/

namespace Kubernetes.TopologyManager

/-- `scope`: the hint of each container of each pod, by pod UID and container name
(`podTopologyHints`), and the pod UID of each container ID given to `AddContainer` (`podMap`). -/
structure Scope where
  podTopologyHints : AList (fun _ : String => AList (fun _ : String => TopologyHint))
  podMap : AList (fun _ : String => String)

namespace Scope

/-- A pod, as the scope reads it: its UID and the names of its init and app containers. -/
structure Pod where
  uid : String
  initContainers : List String
  containers : List String

/-- `lifecycle.PodAdmitResult`: whether the pod is admitted (`Admit`), and why not. -/
structure PodAdmitResult where
  admitted : Bool
  reason : String
  message : String
  deriving DecidableEq

/-- `admitPod()`. -/
def admitPod : PodAdmitResult := ⟨true, "", ""⟩

/-- `topologyAffinityError()`. -/
def topologyAffinityError : PodAdmitResult :=
  ⟨false, "TopologyAffinityError", "Resources cannot be allocated with Topology locality"⟩

/-- `unexpectedAdmissionError(err)`. -/
def unexpectedAdmissionError (err : String) : PodAdmitResult :=
  ⟨false, "UnexpectedAdmissionError", "Allocate failed due to " ++ err ++ ", which is unexpected"⟩

/-- What `Admit` asks outside the scope: the policy's name, `Merge` of the providers' hints for the
pod (`none`) or for one of its containers, and `allocateAlignedResources`, the providers'
`Allocate` of a container, with the first error. -/
structure Providers where
  policyName : String
  merge : Option String → TopologyHint × Bool
  allocate : String → Except String Unit

/-- The store's entry for a container: `none` where Go's `getTopologyHints` reads the zero hint. -/
def hintEntry (s : Scope) (podUID containerName : String) : Option TopologyHint :=
  (s.podTopologyHints.lookup podUID).bind (·.lookup containerName)

/-- `getTopologyHints(podUID, containerName)`, which `GetAffinity` returns. -/
def getTopologyHints (s : Scope) (podUID containerName : String) : TopologyHint :=
  (s.hintEntry podUID containerName).getD ⟨none, false⟩

/-- `setTopologyHints`: the pod's map, made when missing, gets the container's hint. -/
def setTopologyHints (s : Scope) (podUID containerName : String) (th : TopologyHint) : Scope :=
  let hints := (s.podTopologyHints.lookup podUID).getD ∅
  { s with podTopologyHints := s.podTopologyHints.insert podUID (hints.insert containerName th) }

/-- `AddContainer(pod, containerID)`. -/
def addContainer (s : Scope) (pod : Pod) (containerID : String) : Scope :=
  { s with podMap := s.podMap.insert containerID pod.uid }

/-- `RemoveContainer(containerID)`: the pod of the ID (`""` when unknown), whose map loses the key
`containerID`, and the store the pod's map once it is empty. -/
def removeContainer (s : Scope) (containerID : String) : Scope :=
  let podUIDString := (s.podMap.lookup containerID).getD ""
  let podMap := s.podMap.erase containerID
  match s.podTopologyHints.lookup podUIDString with
  | none => { s with podMap }
  | some hints =>
    let hints := hints.erase containerID
    if hints.keys = [] then { podTopologyHints := s.podTopologyHints.erase podUIDString, podMap }
    else { podTopologyHints := s.podTopologyHints.insert podUIDString hints, podMap }

/-- `admitPolicyNone`: the providers allocate every container, and no hint is stored. -/
def admitPolicyNone (providers : Providers) : List String → PodAdmitResult
  | [] => admitPod
  | container :: containers =>
    match providers.allocate container with
    | .error err => unexpectedAdmissionError err
    | .ok () => admitPolicyNone providers containers

/-- The loop of both scopes' `Admit` over the pod's containers: the container's hint, rejected when
`Merge` does not admit it, stored, then the providers' `Allocate`, whose error ends the loop. -/
def admitContainers (providers : Providers) (podUID : String)
    (affinity : String → TopologyHint × Bool) : Scope → List String → Scope × PodAdmitResult
  | s, [] => (s, admitPod)
  | s, container :: containers =>
    let (bestHint, canAdmitHint) := affinity container
    if !canAdmitHint then (s, topologyAffinityError)
    else
      let s := s.setTopologyHints podUID container bestHint
      match providers.allocate container with
      | .error err => (s, unexpectedAdmissionError err)
      | .ok () => admitContainers providers podUID affinity s containers

/-- `podScope.Admit`: one `Merge` for the whole pod, whose hint every container gets. -/
def admitPodScope (s : Scope) (providers : Providers) (pod : Pod) : Scope × PodAdmitResult :=
  if providers.policyName = "none" then
    (s, admitPolicyNone providers (pod.initContainers ++ pod.containers))
  else
    let (bestHint, canAdmitHint) := providers.merge none
    if !canAdmitHint then (s, topologyAffinityError)
    else admitContainers providers pod.uid (fun _ => (bestHint, true)) s
      (pod.initContainers ++ pod.containers)

/-- `containerScope.Admit`: one `Merge` for each container. -/
def admitContainerScope (s : Scope) (providers : Providers) (pod : Pod) :
    Scope × PodAdmitResult :=
  if providers.policyName = "none" then
    (s, admitPolicyNone providers (pod.initContainers ++ pod.containers))
  else
    admitContainers providers pod.uid (fun container => providers.merge (some container)) s
      (pod.initContainers ++ pod.containers)

/-- A call on the scope; `Admit` of the pod or the container scope. -/
inductive Op
  | podScopeAdmit (providers : Providers) (pod : Pod)
  | containerScopeAdmit (providers : Providers) (pod : Pod)
  | addContainer (pod : Pod) (containerID : String)
  | removeContainer (containerID : String)

/-- One call. -/
def step (s : Scope) : Op → Scope
  | .podScopeAdmit providers pod => (s.admitPodScope providers pod).1
  | .containerScopeAdmit providers pod => (s.admitContainerScope providers pod).1
  | .addContainer pod containerID => s.addContainer pod containerID
  | .removeContainer containerID => s.removeContainer containerID

/-- A run of calls. -/
def run (s : Scope) (ops : List Op) : Scope := ops.foldl step s

/-! ## What each call keeps -/

variable {s : Scope} {podUID containerName : String}

theorem hintEntry_setTopologyHints (s : Scope) (podUID containerName : String)
    (th : TopologyHint) (uid name : String) :
    (s.setTopologyHints podUID containerName th).hintEntry uid name =
      if uid = podUID ∧ name = containerName then some th else s.hintEntry uid name := by
  unfold hintEntry setTopologyHints
  by_cases huid : uid = podUID
  · subst huid
    rw [AList.lookup_insert, Option.bind_some]
    by_cases hname : name = containerName
    · subst hname
      rw [AList.lookup_insert, if_pos ⟨rfl, rfl⟩]
    · rw [AList.lookup_insert_ne hname, if_neg (fun h => hname h.2)]
      cases s.podTopologyHints.lookup uid <;> simp
  · rw [AList.lookup_insert_ne huid, if_neg (fun h => huid h.1)]

theorem isSome_hintEntry_setTopologyHints (h : (s.hintEntry podUID containerName).isSome)
    (uid name : String) (th : TopologyHint) :
    ((s.setTopologyHints uid name th).hintEntry podUID containerName).isSome := by
  rw [hintEntry_setTopologyHints]
  split <;> simp_all

/-- The `Admit` loop only adds hints. -/
theorem isSome_hintEntry_admitContainers (providers : Providers) (uid : String)
    (affinity : String → TopologyHint × Bool) (containers : List String)
    (h : (s.hintEntry podUID containerName).isSome) :
    ((admitContainers providers uid affinity s containers).1.hintEntry podUID
      containerName).isSome := by
  induction containers generalizing s with
  | nil => exact h
  | cons container containers ih =>
    unfold admitContainers
    dsimp only
    split
    · exact h
    · have h' := isSome_hintEntry_setTopologyHints h uid container (affinity container).1
      split
      · exact h'
      · exact ih h'

theorem hintEntry_addContainer (s : Scope) (pod : Pod) (containerID : String) :
    (s.addContainer pod containerID).hintEntry = s.hintEntry := rfl

/-- `RemoveContainer` keeps the hint of every container whose name is not the ID it is given: the
pod's map keeps that entry, so it is not empty either. -/
theorem hintEntry_removeContainer_of_ne {containerID : String} (hne : containerName ≠ containerID) :
    (s.removeContainer containerID).hintEntry podUID containerName =
      s.hintEntry podUID containerName := by
  unfold removeContainer
  dsimp only
  split
  · rfl
  · rename_i hints hhints
    unfold hintEntry
    by_cases huid : podUID = (s.podMap.lookup containerID).getD ""
    · -- the pod of the ID: its map loses the key `containerID` only
      rw [huid, hhints, Option.bind_some]
      split
      · rename_i hempty
        rw [AList.lookup_erase, Option.bind_none]
        symm
        rw [AList.lookup_eq_none, AList.mem_keys]
        have := congrArg (containerName ∈ ·) hempty
        simp only [AList.keys_erase, List.not_mem_nil, eq_iff_iff, iff_false] at this
        intro hmem
        exact this (List.mem_erase_of_ne hne |>.mpr hmem)
      · rw [AList.lookup_insert, Option.bind_some, AList.lookup_erase_ne hne]
    · split
      · rw [AList.lookup_erase_ne huid]
      · rw [AList.lookup_insert_ne huid]

/-- One call keeps every stored hint, unless it is a `RemoveContainer` of the container's name. -/
theorem isSome_hintEntry_step (op : Op) (hop : op ≠ .removeContainer containerName)
    (h : (s.hintEntry podUID containerName).isSome) :
    ((s.step op).hintEntry podUID containerName).isSome := by
  cases op with
  | podScopeAdmit providers pod =>
    rw [step, admitPodScope]
    split
    · exact h
    · dsimp only
      split
      · exact h
      · exact isSome_hintEntry_admitContainers _ _ _ _ h
  | containerScopeAdmit providers pod =>
    rw [step, admitContainerScope]
    split
    · exact h
    · exact isSome_hintEntry_admitContainers _ _ _ _ h
  | addContainer pod containerID => exact h
  | removeContainer containerID =>
    have hne : containerName ≠ containerID := fun heq => hop (heq ▸ rfl)
    rw [step, hintEntry_removeContainer_of_ne hne]
    exact h

/-- **A stored hint outlives every call but a `RemoveContainer` of the container's name**: along
any run in which no container ID is the container's name, its hint stays in the store. -/
theorem isSome_hintEntry_run (ops : List Op)
    (hops : ∀ op ∈ ops, op ≠ .removeContainer containerName)
    (h : (s.hintEntry podUID containerName).isSome) :
    ((s.run ops).hintEntry podUID containerName).isSome := by
  induction ops generalizing s with
  | nil => exact h
  | cons op ops ih =>
    rw [run, List.foldl_cons]
    exact ih (fun op' hop' => hops op' (List.mem_cons_of_mem _ hop'))
      (isSome_hintEntry_step op (hops op List.mem_cons_self) h)

/-- A pod with one app container `app`, admitted by the pod scope of a policy whose `Merge` admits
the hint without a mask, with every `Allocate` succeeding. -/
def churnPod : Pod := ⟨"pod", [], ["app"]⟩

def churnProviders : Providers := ⟨"best-effort", fun _ => (⟨none, true⟩, true), fun _ => .ok ()⟩

/-- **`RemoveContainer` leaves the hint behind**: after `Admit`, `AddContainer` with the container's
ID and `RemoveContainer` of that ID, the ID is forgotten but the pod's entry still holds the
container's hint. -/
theorem removeContainer_keeps_hints :
    ((⟨∅, ∅⟩ : Scope).run [.podScopeAdmit churnProviders churnPod,
        .addContainer churnPod "app-id", .removeContainer "app-id"]).podMap.lookup "app-id" = none ∧
      ((⟨∅, ∅⟩ : Scope).run [.podScopeAdmit churnProviders churnPod,
        .addContainer churnPod "app-id", .removeContainer "app-id"]).hintEntry "pod" "app" =
          some ⟨none, true⟩ :=
  ⟨rfl, rfl⟩

end Scope

end Kubernetes.TopologyManager
