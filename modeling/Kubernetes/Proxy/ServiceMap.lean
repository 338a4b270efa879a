import Mathlib

/-!
# kube-proxy's map of service ports

`pkg/proxy/service.go`. A `ServiceMap` maps each port of each proxied Service
(`ServicePortName`: the Service's namespace and name, the port's name and protocol) to what the
proxier keeps of it. Service events are not applied at once: `ServiceChangeTracker.Update(previous,
current)` records, per Service, the map of its first `previous` version and of its latest
`current` one, and drops the record when the two are deeply equal. `ServiceMap.Update` then
applies every record: it merges the current map, and unmerges what of the previous one the current
does not have.

A Go map is an `AList`; a `nil` map is `none`. `reflect.DeepEqual` tells a `nil` map from an empty
one. The information a port gets is `makeServiceInfo port service`, for any function: the proxier
injects it, on top of `newBaseServiceInfo`. What `apply` and `Update` read of it is its cluster IP,
protocol and health check node port.
-/

namespace Kubernetes.Proxy

/-- `types.NamespacedName`. -/
structure NamespacedName where
  «namespace» : String
  name : String
  deriving DecidableEq

/-- `v1.Protocol`. -/
inductive Protocol
  | tcp
  | udp
  | sctp
  deriving DecidableEq

/-- `ServicePortName`. -/
structure ServicePortName where
  namespacedName : NamespacedName
  port : String
  protocol : Protocol
  deriving DecidableEq

/-- `v1.ServiceType`. -/
inductive ServiceType
  | clusterIP
  | nodePort
  | loadBalancer
  | externalName
  deriving DecidableEq

/-- `v1.IPFamily`. -/
inductive IPFamily
  | ipv4
  | ipv6
  deriving DecidableEq

/-- A port of a Service's spec (`v1.ServicePort`). -/
structure ServicePortSpec where
  name : String
  protocol : Protocol
  port : ℕ
  deriving DecidableEq

/-- A Service, as the proxy reads it. `clusterIPIsIPv6` is `utilnet.IsIPv6String(spec.clusterIP)`. -/
structure Service where
  «namespace» : String
  name : String
  serviceType : ServiceType
  clusterIP : String
  clusterIPs : List String
  ipFamilies : List IPFamily
  clusterIPIsIPv6 : Bool
  ports : List ServicePortSpec
  deriving DecidableEq

/-- What the proxy reads of a port's information (the `ServicePort` interface), with what the
proxier adds. -/
structure ServicePortInfo (α : Type) where
  clusterIP : String
  protocol : Protocol
  healthCheckNodePort : ℕ
  extra : α
  deriving DecidableEq

/-- The entries of a non-`nil` `ServiceMap`. -/
abbrev PortMap (α : Type) := AList fun _ : ServicePortName => ServicePortInfo α

/-- `serviceChange`: the map of the first `previous` version and of the latest `current` one. -/
structure ServiceChange (α : Type) where
  previous : Option (PortMap α)
  current : Option (PortMap α)
  deriving DecidableEq

/-- `ServiceChangeTracker`: a change per Service. -/
structure ServiceChangeTracker (α : Type) where
  items : AList fun _ : NamespacedName => ServiceChange α

/-- `NewServiceChangeTracker`. -/
def ServiceChangeTracker.empty (α : Type) : ServiceChangeTracker α := ⟨∅⟩

/-- `helper.IsServiceIPSet(service)`. -/
def isServiceIPSet (service : Service) : Bool :=
  service.clusterIP != "None" && service.clusterIP != ""

/-- `utilproxy.ShouldSkipService(service)`: no cluster IP, or an `ExternalName` Service. -/
def shouldSkipService (service : Service) : Bool :=
  !isServiceIPSet service || service.serviceType == .externalName

/-- The loop of `GetClusterIPByFamily` over `spec.ipFamilies`, from index `idx`. -/
def getClusterIPByFamily.loop (ipFamily : IPFamily) (clusterIPs : List String) :
    ℕ → List IPFamily → String
  | _, [] => ""
  | idx, family :: rest =>
    if family = ipFamily ∧ idx < clusterIPs.length then clusterIPs.getD idx ""
    else loop ipFamily clusterIPs (idx + 1) rest

/-- `utilproxy.GetClusterIPByFamily(ipFamily, service)`. -/
def getClusterIPByFamily (ipFamily : IPFamily) (service : Service) : String :=
  -- a Service from before dual-stack has no families: its one address is used if of the family
  if service.ipFamilies = [] then
    if service.clusterIP = "" ∨ service.clusterIP = "None" then ""
    else if (ipFamily = .ipv6) = (service.clusterIPIsIPv6 = true) then service.clusterIP
    else ""
  else getClusterIPByFamily.loop ipFamily service.clusterIPs 0 service.ipFamilies

variable {α : Type}

/-- `serviceToServiceMap(service)`: `nil` for no Service, one that is skipped or one with no
cluster IP of the family; otherwise the map of its ports, a later port of the same name and
protocol overwriting an earlier one. -/
def serviceToServiceMap (makeServiceInfo : ServicePortSpec → Service → ServicePortInfo α)
    (ipFamily : IPFamily) : Option Service → Option (PortMap α)
  | none => none
  | some service =>
    if shouldSkipService service then none
    else if getClusterIPByFamily ipFamily service = "" then none
    else
      some (service.ports.foldl (fun serviceMap servicePort =>
        serviceMap.insert ⟨⟨service.«namespace», service.name⟩, servicePort.name, servicePort.protocol⟩
          (makeServiceInfo servicePort service)) ∅)

/-- `reflect.DeepEqual` on two `ServiceMap`s: both `nil`, or both made, of the same length, each
key of the first mapped to the same value by the second. -/
def deepEqual [DecidableEq α] : Option (PortMap α) → Option (PortMap α) → Bool
  | none, none => true
  | some a, some b => a.keys.length == b.keys.length && a.keys.all fun k => a.lookup k == b.lookup k
  | _, _ => false

/-- `ServiceChangeTracker.Update(previous, current)`: the tracker, and whether it has changes. -/
def ServiceChangeTracker.update [DecidableEq α]
    (makeServiceInfo : ServicePortSpec → Service → ServicePortInfo α) (ipFamily : IPFamily)
    (sct : ServiceChangeTracker α) (previous current : Option Service) :
    ServiceChangeTracker α × Bool :=
  match current.orElse fun _ => previous with
  -- `previous == nil && current == nil` is unexpected
  | none => (sct, false)
  | some svc =>
    let namespacedName : NamespacedName := ⟨svc.«namespace», svc.name⟩
    let prev := match sct.items.lookup namespacedName with
      | some change => change.previous
      | none => serviceToServiceMap makeServiceInfo ipFamily previous
    let change : ServiceChange α := ⟨prev, serviceToServiceMap makeServiceInfo ipFamily current⟩
    -- a change back to the first version is no change
    let items := if deepEqual change.previous change.current then sct.items.erase namespacedName
      else sct.items.insert namespacedName change
    (⟨items⟩, decide (items.entries ≠ []))

/-- `sm.merge(other)`: `other`'s entries win. -/
def merge (sm : PortMap α) : Option (PortMap α) → PortMap α
  | none => sm
  | some other => other ∪ sm

/-- `previous.filter(current)`: the keys of `current` taken out of `previous`. -/
def filter (previous current : Option (PortMap α)) : Option (PortMap α) :=
  previous.map fun previous =>
    previous.keys.foldl (fun m k => if (current.bind (·.lookup k)).isSome then m.erase k else m)
      previous

/-- The body of `unmerge`'s loop, for one key of `other`: a port the map has is deleted, and its
cluster IP is stale if it is a UDP port. -/
def unmergePort (smStale : PortMap α × List String) (svcPortName : ServicePortName) :
    PortMap α × List String :=
  match smStale.1.lookup svcPortName with
  | some info =>
    (smStale.1.erase svcPortName,
      if info.protocol = .udp then smStale.2.insert info.clusterIP else smStale.2)
  | none => smStale

/-- `sm.unmerge(other, UDPStaleClusterIP)`: the keys of `other` taken out of `sm`, and the cluster
IPs of the UDP ports so taken out added to the stale ones. -/
def unmerge (sm : PortMap α) (other : Option (PortMap α)) (udpStaleClusterIP : List String) :
    PortMap α × List String :=
  ((other.map (·.keys)).getD []).foldl unmergePort (sm, udpStaleClusterIP)

/-- The body of `apply`'s loop, for one change. -/
def applyChange (smStale : PortMap α × List String) (change : ServiceChange α) :
    PortMap α × List String :=
  unmerge (merge smStale.1 change.current) (filter change.previous change.current) smStale.2

/-- `sm.apply(changes, UDPStaleClusterIP)`, the changes in the order the loop over the tracker's
map visits them, which Go leaves unspecified: the map, the stale UDP cluster IPs, and the tracker
emptied. -/
def apply (sm : PortMap α) (order : List (ServiceChange α)) (udpStaleClusterIP : List String) :
    PortMap α × List String × ServiceChangeTracker α :=
  let (sm, stale) := order.foldl applyChange (sm, udpStaleClusterIP)
  (sm, stale, .empty α)

/-- `UpdateServiceMapResult`. -/
structure UpdateServiceMapResult where
  hcServiceNodePorts : AList fun _ : NamespacedName => ℕ
  udpStaleClusterIP : List String

/-- `ServiceMap.Update(changes)`, the tracker's changes visited in the order `order`: the map, the
result, and the tracker emptied. The health check node ports are read from the updated map, a
later port of a Service overwriting an earlier one, as `uint16`. -/
def update (sm : PortMap α) (order : List (ServiceChange α)) :
    PortMap α × UpdateServiceMapResult × ServiceChangeTracker α :=
  let (sm, udpStaleClusterIP, changes) := apply sm order []
  let hcServiceNodePorts := sm.entries.foldl (fun result entry =>
    if entry.2.healthCheckNodePort ≠ 0 then
      result.insert entry.1.namespacedName (entry.2.healthCheckNodePort % 2 ^ 16)
    else result) ∅
  (sm, ⟨hcServiceNodePorts, udpStaleClusterIP⟩, changes)

end Kubernetes.Proxy
