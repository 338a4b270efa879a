import Mathlib
import Kubernetes.Foundations.GoRange
import Kubernetes.Proxy.EndpointSliceCache

/-!
# The EndpointSlice reconciler: one group of ports

`pkg/controller/endpointslice/reconciler.go`. For the pods of a Service whose endpoints share one
set of ports, `reconcileByPortMapping` compares the endpoints the Service should have (the
desired `endpointSet`) with the slices that exist, and returns the slices to create, to update
and to delete, with the numbers of endpoints added and removed. It works in three steps:

1. each existing slice keeps the desired version of its endpoints that are still desired, and the
   set loses them (`keepDesired`); the slice is marked unchanged, to update or to delete
   (`reconcileExistingSlice`);
2. the slices marked to update are filled up with desired endpoints, fullest first
   (`fillSlicesToUpdate`);
3. what is left goes, while there is some, to the unchanged slice it fills closest to full
   (`getSliceToFill`) or to a new slice (`fillRemaining`).

An `endpointSet` is a Go map from an endpoint's hash to the endpoint whose hash it is:
`EndpointSet` keeps its endpoints in a list with distinct hashes, in the order the map is ranged
over, one of the orders Go may take; `PopAny` takes the first. The hash is that of the sorted
addresses and the hostname, taken here as the pair itself. A `sets.String` of slice names is a
list without repetitions, ranged over in its order, and a deep copy of a slice is the slice.

`EndpointsEqualBeyondHash` compares `ep1`'s node name and zone with themselves: only the
readiness and the target reference of an endpoint can make its slice an update.

`reconcileByAddressType` runs `reconcileByPortMapping` for each group of ports of one address type:
it groups the existing slices the Service owns by the key of their ports, reads the desired endpoints
of each group off the pods, deletes the slices it does not own and those of ports no pod has, adds an
empty slice when nothing else would be left, and hands the plan to `finalize`. What it reads of a pod
goes through the functions it calls on it (`PodReader`), and `NewPortMapKey` is any function of the
ports. The two maps it ranges over are visited in orders left to the runtime (`Go.MapOrder`).
-/

namespace Kubernetes.EndpointSliceReconciler

open Proxy (AddressType EndpointPort EndpointConditions)

/-! ## Endpoints and their set -/

/-- `discovery.Endpoint`, what the reconciler reads of it; the target reference is compared as a
whole, so it stands here as a string. -/
structure Endpoint where
  addresses : List String
  hostname : Option String
  conditions : EndpointConditions
  targetRef : Option String
  nodeName : Option String
  zone : Option String
  deriving DecidableEq

/-- `endpointHashObj`: what `hashEndpoint` hashes. -/
abbrev EndpointHash := List String × String

/-- `hashEndpoint(endpoint)`: the sorted addresses and the hostname (empty when `nil`). -/
def hashEndpoint (endpoint : Endpoint) : EndpointHash :=
  (endpoint.addresses.insertionSort (fun a b => decide (a ≤ b)), endpoint.hostname.getD "")

/-- `stringPtrChanged`, `boolPtrChanged` and `objectRefPtrChanged`: two pointers differ when one
of them only is `nil`, or both are set to different values. -/
def ptrChanged {α : Type} [DecidableEq α] (ptr1 ptr2 : Option α) : Bool :=
  if ptr1.isNone ≠ ptr2.isNone then true
  else match ptr1, ptr2 with
    | some v1, some v2 => v1 ≠ v2
    | _, _ => false

/-- `stringPtrChanged(ptr1, ptr2)`. -/
def stringPtrChanged (ptr1 ptr2 : Option String) : Bool := ptrChanged ptr1 ptr2

/-- `boolPtrChanged(ptr1, ptr2)`. -/
def boolPtrChanged (ptr1 ptr2 : Option Bool) : Bool := ptrChanged ptr1 ptr2

/-- `objectRefPtrChanged(ref1, ref2)`. -/
def objectRefPtrChanged (ref1 ref2 : Option String) : Bool := ptrChanged ref1 ref2

/-- `EndpointsEqualBeyondHash(ep1, ep2)`: the node name and the zone are those of `ep1` twice. -/
def EndpointsEqualBeyondHash (ep1 ep2 : Endpoint) : Bool :=
  if stringPtrChanged ep1.nodeName ep1.nodeName then false
  else if stringPtrChanged ep1.zone ep1.zone then false
  else if boolPtrChanged ep1.conditions.ready ep2.conditions.ready then false
  else if objectRefPtrChanged ep1.targetRef ep2.targetRef then false
  else true

/-- `endpointSet`: the map from `hashEndpoint e` to `e`, as its list of endpoints. -/
structure EndpointSet where
  endpoints : List Endpoint
  nodup : (endpoints.map hashEndpoint).Nodup

namespace EndpointSet

/-- The empty set. -/
def empty : EndpointSet := ⟨[], List.nodup_nil⟩

/-- `Len()`. -/
def Len (s : EndpointSet) : ℕ := s.endpoints.length

/-- `Get(item)`: the endpoint of the set with `item`'s hash. -/
def Get (s : EndpointSet) (item : Endpoint) : Option Endpoint :=
  s.endpoints.find? fun e => hashEndpoint e = hashEndpoint item

/-- `Has(item)`. -/
def Has (s : EndpointSet) (item : Endpoint) : Bool := (s.Get item).isSome

/-- `Delete(item)`: the endpoint with `item`'s hash leaves the set. -/
def Delete (s : EndpointSet) (item : Endpoint) : EndpointSet :=
  ⟨s.endpoints.filter fun e => hashEndpoint e ≠ hashEndpoint item,
    s.nodup.sublist (List.filter_sublist.map _)⟩

/-- `Insert(item)`: `item` takes the place of the endpoint with its hash. -/
def Insert (s : EndpointSet) (item : Endpoint) : EndpointSet :=
  ⟨(s.Delete item).endpoints ++ [item], by
    rw [List.map_append, List.nodup_append]
    refine ⟨(s.Delete item).nodup, List.nodup_singleton _, fun a ha b hb => ?_⟩
    obtain ⟨e, he, rfl⟩ := List.mem_map.mp ha
    rw [List.mem_singleton.mp hb]
    exact of_decide_eq_true (List.mem_filter.mp he).2⟩

/-- `UnsortedList()`. -/
def UnsortedList (s : EndpointSet) : List Endpoint := s.endpoints

end EndpointSet

/-! ## Slices -/

/-- `metav1.OwnerReference`, what `ownedBy` compares. -/
structure OwnerReference where
  uid : String
  kind : String
  apiVersion : String
  deriving DecidableEq

/-- Labels, a Go `map[string]string`. -/
abbrev Labels := AList fun _ : String => String

/-- `discovery.EndpointSlice`, what the reconciler reads and writes of it. A slice to create has
the empty name, and gets one from its `generateName` when the API server creates it. -/
structure EndpointSlice where
  name : String
  generateName : String
  ownerReferences : List OwnerReference
  labels : Labels
  addressType : AddressType
  ports : List EndpointPort
  endpoints : List Endpoint

/-- `corev1.Service`, what the reconciler reads of it. -/
structure Service where
  name : String
  uid : String
  labels : Labels
  clusterIP : String

/-- `endpointMeta`: what the slices of one group share. -/
structure EndpointMeta where
  ports : List EndpointPort
  addressType : AddressType

/-- `discovery.LabelServiceName`. -/
def LabelServiceName : String := "kubernetes.io/service-name"

/-- `discovery.LabelManagedBy`. -/
def LabelManagedBy : String := "endpointslice.kubernetes.io/managed-by"

/-- `v1.IsHeadlessService`. -/
def IsHeadlessService : String := "service.kubernetes.io/headless"

/-- `controllerName`. -/
def controllerName : String := "endpointslice-controller.k8s.io"

/-- `IsReservedLabelKey(label)`. -/
def IsReservedLabelKey (label : String) : Bool :=
  label = LabelServiceName || label = LabelManagedBy || label = IsHeadlessService

/-- `helper.IsServiceIPSet(service)`. -/
def IsServiceIPSet (service : Service) : Bool :=
  service.clusterIP ≠ "None" && service.clusterIP ≠ ""

/-- The loops of `setEndpointSliceLabels` that copy a map without its reserved labels. -/
def withoutReserved (labels : Labels) : Labels :=
  labels.entries.foldl (fun m e => if IsReservedLabelKey e.1 then m else m.insert e.1 e.2) ∅

/-- `apiequality.Semantic.DeepEqual` of two maps of labels: the same keys, with the same values. -/
def labelsEqual (m₁ m₂ : Labels) : Bool :=
  m₁.keys.length = m₂.keys.length && m₁.keys.all fun k => m₁.lookup k = m₂.lookup k

/-- `setEndpointSliceLabels(epSlice, service)`: the Service's labels other than the reserved
ones, and the reserved ones the controller sets; and whether the slice's unreserved labels
differ from the Service's. -/
def setEndpointSliceLabels (epSlice : EndpointSlice) (service : Service) : Labels × Bool :=
  let epLabels := withoutReserved epSlice.labels
  let svcLabels := withoutReserved service.labels
  let updated := !labelsEqual epLabels svcLabels
  let svcLabels := if !IsServiceIPSet service then svcLabels.insert IsHeadlessService ""
    else svcLabels.erase IsHeadlessService
  let svcLabels := (svcLabels.insert LabelServiceName service.name).insert LabelManagedBy
    controllerName
  (svcLabels, updated)

/-- `getEndpointSlicePrefix(serviceName)`, for a name that passes validation with the dash. -/
def getEndpointSlicePrefix (serviceName : String) : String := serviceName ++ "-"

/-- `newEndpointSlice(service, endpointMeta)`: an empty slice owned by the Service. -/
def newEndpointSlice (service : Service) (endpointMeta : EndpointMeta) : EndpointSlice :=
  let epSlice : EndpointSlice :=
    { name := ""
      generateName := getEndpointSlicePrefix service.name
      ownerReferences := [⟨service.uid, "Service", "v1"⟩]
      labels := ∅
      addressType := endpointMeta.addressType
      ports := endpointMeta.ports
      endpoints := [] }
  { epSlice with labels := (setEndpointSliceLabels epSlice service).1 }

/-- `ownedBy(endpointSlice, svc)`. -/
def ownedBy (endpointSlice : EndpointSlice) (svc : Service) : Bool :=
  endpointSlice.ownerReferences.any fun o => o.uid = svc.uid && o.kind = "Service" &&
    o.apiVersion = "v1"

/-- The loop of `getSliceToFill`: the closest slice so far and how far from full it leaves. -/
def getSliceToFillLoop (numEndpoints maxEndpoints : ℤ) :
    List EndpointSlice → ℤ → Option EndpointSlice → Option EndpointSlice
  | [], _, closestSlice => closestSlice
  | endpointSlice :: endpointSlices, closestDiff, closestSlice =>
    let currentDiff := maxEndpoints - (numEndpoints + endpointSlice.endpoints.length)
    if currentDiff ≥ 0 ∧ currentDiff < closestDiff then
      if currentDiff = 0 then some endpointSlice
      else getSliceToFillLoop numEndpoints maxEndpoints endpointSlices currentDiff (some endpointSlice)
    else getSliceToFillLoop numEndpoints maxEndpoints endpointSlices closestDiff closestSlice

/-- `getSliceToFill(endpointSlices, numEndpoints, maxEndpoints)`: the slice that `numEndpoints`
more endpoints leave closest to full, or `nil` when none has room for them. -/
def getSliceToFill (endpointSlices : List EndpointSlice) (numEndpoints maxEndpoints : ℕ) :
    Option EndpointSlice :=
  getSliceToFillLoop numEndpoints maxEndpoints endpointSlices maxEndpoints none

/-- `unchangedSlices(existingSlices, slicesToUpdate, slicesToDelete)`. -/
def unchangedSlices (existingSlices slicesToUpdate slicesToDelete : List EndpointSlice) :
    List EndpointSlice :=
  let changedSliceNames := (slicesToUpdate ++ slicesToDelete).foldl
    (fun names slice => names.insert slice.name) []
  existingSlices.filter fun slice => slice.name ∉ changedSliceNames

/-! ## `reconcileByPortMapping` -/

/-- The variables of `reconcileByPortMapping` between its steps. -/
structure PortMappingState where
  slicesByName : AList fun _ : String => EndpointSlice
  sliceNamesUnchanged : List String
  sliceNamesToUpdate : List String
  sliceNamesToDelete : List String
  desiredSet : EndpointSet
  numRemoved : ℕ

/-- One pass of the loop over an existing slice's endpoints: the desired version of an endpoint
still in the set is kept and leaves the set, and marks the slice updated when it differs beyond
its hash. -/
def keepDesired (acc : List Endpoint × Bool × EndpointSet) (endpoint : Endpoint) :
    List Endpoint × Bool × EndpointSet :=
  match acc.2.2.Get endpoint with
  | some got =>
    (acc.1 ++ [got], acc.2.1 || !EndpointsEqualBeyondHash got endpoint, acc.2.2.Delete endpoint)
  | none => acc

/-- Step 1 for one existing slice. -/
def reconcileExistingSlice (service : Service) (st : PortMappingState)
    (existingSlice : EndpointSlice) : PortMappingState :=
  let st := { st with slicesByName := st.slicesByName.insert existingSlice.name existingSlice }
  let (newEndpoints, endpointUpdated, desiredSet) :=
    existingSlice.endpoints.foldl keepDesired ([], false, st.desiredSet)
  let st := { st with desiredSet }
  let (labels, labelsChanged) := setEndpointSliceLabels existingSlice service
  if endpointUpdated || existingSlice.endpoints.length ≠ newEndpoints.length then
    let st := if existingSlice.endpoints.length > newEndpoints.length then
        { st with numRemoved := st.numRemoved + (existingSlice.endpoints.length - newEndpoints.length) }
      else st
    if newEndpoints.length = 0 then
      { st with sliceNamesToDelete := st.sliceNamesToDelete.insert existingSlice.name }
    else
      let epSlice := { existingSlice with endpoints := newEndpoints, labels }
      { st with slicesByName := st.slicesByName.insert existingSlice.name epSlice
                sliceNamesToUpdate := st.sliceNamesToUpdate.insert epSlice.name }
  else if labelsChanged then
    let epSlice := { existingSlice with labels }
    { st with slicesByName := st.slicesByName.insert existingSlice.name epSlice
              sliceNamesToUpdate := st.sliceNamesToUpdate.insert epSlice.name }
  else
    { st with sliceNamesUnchanged := st.sliceNamesUnchanged.insert existingSlice.name }

/-- The loop that fills one slice: while endpoints are desired and the slice has room, `PopAny`
takes the first of them and the slice gets it. -/
def fillSlice (maxEndpointsPerSlice : ℕ) (slice : EndpointSlice) :
    List Endpoint → EndpointSlice × List Endpoint
  | [] => (slice, [])
  | endpoint :: desired =>
    if slice.endpoints.length < maxEndpointsPerSlice then
      fillSlice maxEndpointsPerSlice { slice with endpoints := slice.endpoints ++ [endpoint] } desired
    else (slice, endpoint :: desired)

/-- What `fillSlice` leaves of the desired endpoints is a suffix of them. -/
theorem fillSlice_suffix (maxEndpointsPerSlice : ℕ) (slice : EndpointSlice) (desired : List Endpoint) :
    (fillSlice maxEndpointsPerSlice slice desired).2 <:+ desired := by
  induction desired generalizing slice with
  | nil => exact List.suffix_refl _
  | cons endpoint desired ih =>
    rw [fillSlice]
    split_ifs
    · exact (ih _).trans (List.suffix_cons _ _)
    · exact List.suffix_refl _

/-- `fillSlice` on the desired set. -/
def EndpointSet.fill (s : EndpointSet) (maxEndpointsPerSlice : ℕ) (slice : EndpointSlice) :
    EndpointSlice × EndpointSet :=
  ((fillSlice maxEndpointsPerSlice slice s.endpoints).1,
    ⟨(fillSlice maxEndpointsPerSlice slice s.endpoints).2,
      s.nodup.sublist ((fillSlice_suffix _ _ _).sublist.map _)⟩)

/-- Fill the slice to update `slice` and put it back under its name; in Go the slice is the
value of `slicesByName`, filled in place. -/
def fillSliceToUpdate (maxEndpointsPerSlice : ℕ) (st : PortMappingState) (slice : EndpointSlice) :
    PortMappingState :=
  let (slice, desiredSet) := st.desiredSet.fill maxEndpointsPerSlice slice
  { st with slicesByName := st.slicesByName.insert slice.name slice, desiredSet }

/-- Step 2: the slices to update, fullest first, are filled up with desired endpoints. -/
def fillSlicesToUpdate (maxEndpointsPerSlice : ℕ) (st : PortMappingState) : PortMappingState :=
  if st.desiredSet.Len > 0 ∧ st.sliceNamesToUpdate.length > 0 then
    let slices := st.sliceNamesToUpdate.filterMap st.slicesByName.lookup
    let slices := slices.insertionSort fun a b => decide (b.endpoints.length ≤ a.endpoints.length)
    slices.foldl (fillSliceToUpdate maxEndpointsPerSlice) st
  else st

/-- The unchanged slice a turn of step 3 fills: one is looked for only when the endpoints left
fit in a slice. -/
def findSliceToFill (maxEndpointsPerSlice : ℕ) (st : PortMappingState) : Option EndpointSlice :=
  if st.desiredSet.Len < maxEndpointsPerSlice ∧ st.sliceNamesUnchanged.length > 0 then
    getSliceToFill (st.sliceNamesUnchanged.filterMap st.slicesByName.lookup)
      st.desiredSet.Len maxEndpointsPerSlice
  else none

/-- One turn of step 3: the endpoints left go to the unchanged slice they fill closest to full,
or else to a new slice. A filled slice with a name is updated, one without is created. -/
def fillRemainingOnce (service : Service) (endpointMeta : EndpointMeta) (maxEndpointsPerSlice : ℕ)
    (st : PortMappingState) (slicesToCreate : List EndpointSlice) :
    PortMappingState × List EndpointSlice :=
  let found := findSliceToFill maxEndpointsPerSlice st
  let (sliceToFill, desiredSet) :=
    st.desiredSet.fill maxEndpointsPerSlice (found.getD (newEndpointSlice service endpointMeta))
  -- a slice found is a copy, put under its name and filled in place
  let st := match found with
    | some _ => { st with slicesByName := st.slicesByName.insert sliceToFill.name sliceToFill,
                          desiredSet }
    | none => { st with desiredSet }
  if sliceToFill.name ≠ "" then
    ({ st with sliceNamesToUpdate := st.sliceNamesToUpdate.insert sliceToFill.name
               sliceNamesUnchanged := st.sliceNamesUnchanged.erase sliceToFill.name },
      slicesToCreate)
  else (st, slicesToCreate ++ [sliceToFill])

/-- Step 3: the loop of `fillRemainingOnce` while endpoints are desired. Each turn takes an
endpoint when `maxEndpointsPerSlice` is positive, so as many turns as there are desired endpoints
suffice; with none left the loop would run forever, and returns `none`. -/
def fillRemaining (service : Service) (endpointMeta : EndpointMeta) (maxEndpointsPerSlice : ℕ) :
    ℕ → PortMappingState → List EndpointSlice → Option (PortMappingState × List EndpointSlice)
  | fuel, st, slicesToCreate =>
    if st.desiredSet.Len > 0 then
      match fuel with
      | 0 => none
      | fuel + 1 =>
        let (st, slicesToCreate) :=
          fillRemainingOnce service endpointMeta maxEndpointsPerSlice st slicesToCreate
        fillRemaining service endpointMeta maxEndpointsPerSlice fuel st slicesToCreate
    else some (st, slicesToCreate)

/-- The state `reconcileByPortMapping` starts from. -/
def PortMappingState.init (desiredSet : EndpointSet) : PortMappingState :=
  ⟨∅, [], [], [], desiredSet, 0⟩

/-- `reconcileByPortMapping(service, existingSlices, desiredSet, endpointMeta)`: the slices to
create, to update and to delete, and the numbers of endpoints added and removed; `none` when it
would not return. -/
def reconcileByPortMapping (service : Service) (maxEndpointsPerSlice : ℕ)
    (existingSlices : List EndpointSlice) (desiredSet : EndpointSet) (endpointMeta : EndpointMeta) :
    Option (List EndpointSlice × List EndpointSlice × List EndpointSlice × ℕ × ℕ) :=
  let st := existingSlices.foldl (reconcileExistingSlice service) (PortMappingState.init desiredSet)
  let numAdded := st.desiredSet.Len
  let st := fillSlicesToUpdate maxEndpointsPerSlice st
  match fillRemaining service endpointMeta maxEndpointsPerSlice st.desiredSet.Len st [] with
  | none => none
  | some (st, slicesToCreate) =>
    let slicesToUpdate := st.sliceNamesToUpdate.filterMap st.slicesByName.lookup
    let slicesToDelete := st.sliceNamesToDelete.filterMap st.slicesByName.lookup
    some (slicesToCreate, slicesToUpdate, slicesToDelete, numAdded, st.numRemoved)


/-! ## `finalize` -/

/-- The loop that starts `finalize`: while slices are to be created, the last of them takes the name
of the next slice to delete that has its address type and is owned by the Service, and is updated
in its place. `passed` are the slices to delete the loop has looked at and kept. -/
def finalizeLoop (service : Service) :
    List EndpointSlice → List EndpointSlice → List EndpointSlice → List EndpointSlice →
      List EndpointSlice × List EndpointSlice × List EndpointSlice
  | slicesToCreate, slicesToUpdate, passed, [] => (slicesToCreate, slicesToUpdate, passed)
  | slicesToCreate, slicesToUpdate, passed, sliceToDelete :: slicesToDelete =>
    match slicesToCreate.getLast? with
    | none => (slicesToCreate, slicesToUpdate, passed ++ sliceToDelete :: slicesToDelete)
    | some slice =>
      if sliceToDelete.addressType = slice.addressType ∧ ownedBy sliceToDelete service then
        finalizeLoop service slicesToCreate.dropLast
          (slicesToUpdate ++ [{ slice with name := sliceToDelete.name }]) passed slicesToDelete
      else
        finalizeLoop service slicesToCreate slicesToUpdate (passed ++ [sliceToDelete]) slicesToDelete

/-- `finalize(service, slicesToCreate, slicesToUpdate, slicesToDelete, triggerTime)`: the slices it
creates, updates and deletes. While the Service is being deleted (`deletionPending`, its
`DeletionTimestamp` set) it creates none. -/
def finalize (service : Service) (deletionPending : Bool)
    (slicesToCreate slicesToUpdate slicesToDelete : List EndpointSlice) :
    List EndpointSlice × List EndpointSlice × List EndpointSlice :=
  let (slicesToCreate, slicesToUpdate, slicesToDelete) :=
    finalizeLoop service slicesToCreate slicesToUpdate [] slicesToDelete
  (if deletionPending then [] else slicesToCreate, slicesToUpdate, slicesToDelete)

/-! ## `reconcileByAddressType` -/

/-- What `reconcileByAddressType` reads of a pod, through the functions it calls on it with the
Service and the address type at hand: `ShouldPodBeInEndpointSlice(pod, includeTerminating)`,
`getEndpointPorts(service, pod)`, the node lister's `Get(pod.Spec.NodeName)` (`none` for its error)
and `podToEndpoint(pod, node, service, addressType)`. -/
structure PodReader (Pod Node : Type) where
  shouldPodBeInEndpointSlice : Pod → Bool
  getEndpointPorts : Pod → List EndpointPort
  getNode : Pod → Option Node
  podToEndpoint : Pod → Node → Endpoint

/-- `map[PortMapKey][]*discovery.EndpointSlice`: the existing slices of each group of ports. -/
abbrev SlicesByPortMap (κ : Type) := AList fun _ : κ => List EndpointSlice

/-- `desiredEndpointsByPortMap` and `desiredMetaByPortMap`, which get their keys together: the
desired endpoints and the `endpointMeta` of each group of ports. -/
abbrev DesiredByPortMap (κ : Type) := AList fun _ : κ => EndpointSet × EndpointMeta

section AddressType

variable {Pod Node κ : Type} [DecidableEq κ]

/-- A pass of the loop over the existing slices: a slice the Service owns joins the slices of its
ports, any other is to delete. -/
def groupExistingSlice (newPortMapKey : List EndpointPort → κ) (service : Service)
    (acc : SlicesByPortMap κ × List EndpointSlice) (existingSlice : EndpointSlice) :
    SlicesByPortMap κ × List EndpointSlice :=
  if ownedBy existingSlice service then
    let epHash := newPortMapKey existingSlice.ports
    (acc.1.insert epHash ((acc.1.lookup epHash).getD [] ++ [existingSlice]), acc.2)
  else (acc.1, acc.2 ++ [existingSlice])

/-- A pass of the loop over the pods: a pod that belongs in a slice adds its endpoint, when it has
an address, to the desired endpoints of its ports; the first pod of some ports gives the group its
`endpointMeta`. `none` when the pod's node cannot be read. -/
def addDesiredPod (reader : PodReader Pod Node) (newPortMapKey : List EndpointPort → κ)
    (addressType : AddressType) (desired : DesiredByPortMap κ) (pod : Pod) :
    Option (DesiredByPortMap κ) :=
  if reader.shouldPodBeInEndpointSlice pod then
    let endpointPorts := reader.getEndpointPorts pod
    let epHash := newPortMapKey endpointPorts
    let group := (desired.lookup epHash).getD (EndpointSet.empty, ⟨endpointPorts, addressType⟩)
    match reader.getNode pod with
    | none => none
    | some node =>
      let endpoint := reader.podToEndpoint pod node
      let desiredEndpoints :=
        if endpoint.addresses.length > 0 then group.1.Insert endpoint else group.1
      some (desired.insert epHash (desiredEndpoints, group.2))
  else some desired

/-- A pass of the loop over the desired groups of ports: the plan `reconcileByPortMapping` makes for
the group joins the plan. -/
def addPortMapPlan (service : Service) (maxEndpointsPerSlice : ℕ)
    (existingSlicesByPortMap : SlicesByPortMap κ) (desired : DesiredByPortMap κ)
    (plan : List EndpointSlice × List EndpointSlice × List EndpointSlice) (portMap : κ) :
    Option (List EndpointSlice × List EndpointSlice × List EndpointSlice) :=
  match desired.lookup portMap with
  | none => some plan
  | some (desiredEndpoints, endpointMeta) =>
    match reconcileByPortMapping service maxEndpointsPerSlice
        ((existingSlicesByPortMap.lookup portMap).getD []) desiredEndpoints endpointMeta with
    | none => none
    | some (pmSlicesToCreate, pmSlicesToUpdate, pmSlicesToDelete, _, _) =>
      some (plan.1 ++ pmSlicesToCreate, plan.2.1 ++ pmSlicesToUpdate, plan.2.2 ++ pmSlicesToDelete)

/-- A pass of the loop over the existing groups of ports: the slices of ports no pod has are to
delete. -/
def deleteStalePortMap (existingSlicesByPortMap : SlicesByPortMap κ) (desired : DesiredByPortMap κ)
    (slicesToDelete : List EndpointSlice) (portMap : κ) : List EndpointSlice :=
  if portMap ∈ desired then slicesToDelete
  else slicesToDelete ++ (existingSlicesByPortMap.lookup portMap).getD []

/-- `reconcileByAddressType(service, pods, existingSlices, triggerTime, addressType)`: the slices it
creates, updates and deletes, as `finalize` sends them; `none` when it returns an error (a pod's node
cannot be read) or would not return. Its two loops over maps visit their keys in the orders
`rangeDesired` and `rangeExisting` give. The reconciler has no topology cache and the endpoints carry
no hints, so `RemoveHintsFromSlices` leaves the slices as they are. -/
def reconcileByAddressType (reader : PodReader Pod Node) (newPortMapKey : List EndpointPort → κ)
    (rangeDesired rangeExisting : Go.MapOrder κ) (maxEndpointsPerSlice : ℕ) (service : Service)
    (deletionPending : Bool) (pods : List Pod) (existingSlices : List EndpointSlice)
    (addressType : AddressType) :
    Option (List EndpointSlice × List EndpointSlice × List EndpointSlice) :=
  let (existingSlicesByPortMap, slicesToDelete) :=
    existingSlices.foldl (groupExistingSlice newPortMapKey service) (∅, [])
  match pods.foldlM (addDesiredPod reader newPortMapKey addressType) ∅ with
  | none => none
  | some desired =>
    match (rangeDesired.toList desired.keys.toFinset).foldlM
        (addPortMapPlan service maxEndpointsPerSlice existingSlicesByPortMap desired)
        ([], [], slicesToDelete) with
    | none => none
    | some (slicesToCreate, slicesToUpdate, slicesToDelete) =>
      let slicesToDelete := (rangeExisting.toList existingSlicesByPortMap.keys.toFinset).foldl
        (deleteStalePortMap existingSlicesByPortMap desired) slicesToDelete
      -- with no slice left to the Service, an empty one without ports is created
      let slicesToCreate :=
        if existingSlices.length = slicesToDelete.length ∧ slicesToCreate.length < 1 then
          slicesToCreate ++ [newEndpointSlice service ⟨[], addressType⟩]
        else slicesToCreate
      some (finalize service deletionPending slicesToCreate slicesToUpdate slicesToDelete)

end AddressType

end Kubernetes.EndpointSliceReconciler
