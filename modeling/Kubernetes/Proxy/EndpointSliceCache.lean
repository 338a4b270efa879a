import Mathlib
import Kubernetes.Proxy.ServiceMap

/-!
# kube-proxy's cache of EndpointSlices

`pkg/proxy/endpointslicecache.go` and `pkg/proxy/endpoints.go`. The proxier hands every
EndpointSlice event to `EndpointChangeTracker.EndpointSliceUpdate(slice, remove)`, which records
what the proxy keeps of the slice (`endpointSliceInfo`) as pending in the `EndpointSliceCache`,
under the Service its `kubernetes.io/service-name` label names and the slice's name, unless it
changes nothing (`esInfoChanged`). `EndpointsMap.Update` checks the pending slices out: each
Service with some gets a change, the endpoints map of its applied slices before and after they
are applied (`getEndpointsMap`), and the proxier's map drops the first and takes the second.

Go maps are `AList`s; where the code ranges over one, the model goes through its entries in
their order, one of the orders Go may take. `sort.Sort` is `List.insertionSort` on the same
comparison. `Topology` is a `Finmap` and `ZoneHints` an optional `Finset`, so that
`reflect.DeepEqual` is `=`. The cache is the one `NewEndpointSliceCache` makes with no
`makeEndpointInfo`, whose endpoints are the `BaseEndpointInfo`s themselves.
-/

namespace Kubernetes.Proxy

/-- `discovery.AddressType`. -/
inductive AddressType
  | ipv4
  | ipv6
  | fqdn
  deriving DecidableEq

/-- `discovery.EndpointPort`; the API server defaults `protocol`. -/
structure EndpointPort where
  name : Option String
  protocol : Protocol
  port : Option Int32
  deriving DecidableEq

/-- `discovery.EndpointConditions`. -/
structure EndpointConditions where
  ready : Option Bool
  serving : Option Bool
  terminating : Option Bool
  deriving DecidableEq

/-- `discovery.Endpoint`, what the proxy reads of it: `firstAddressIsIPv6` is
`utilnet.IsIPv6String(addresses[0])`, `zones` the names of `hints.forZones`. -/
structure SliceEndpoint where
  addresses : List String
  firstAddressIsIPv6 : Bool
  conditions : EndpointConditions
  nodeName : Option String
  topology : Finmap fun _ : String => String
  zones : List String

/-- A `discovery.EndpointSlice`: `serviceName` is its `kubernetes.io/service-name` label. -/
structure EndpointSlice where
  «namespace» : String
  name : String
  serviceName : Option String
  addressType : AddressType
  ports : List EndpointPort
  endpoints : List SliceEndpoint
  /-- `byPort.Less` reads `*Port` of both ports it compares, and sorting two ports or more
  compares each of them: kube-proxy panics on a slice with a `nil` port among two or more, so it
  goes on only with slices whose ports are set. -/
  ports_set : ports.length < 2 ∨ ∀ p ∈ ports, p.port.isSome

/-- `endpointInfo`. -/
structure EndpointInfo where
  addresses : List String
  firstAddressIsIPv6 : Bool
  nodeName : Option String
  topology : Finmap fun _ : String => String
  zoneHints : Option (Finset String)
  ready : Bool
  serving : Bool
  terminating : Bool
  deriving DecidableEq

/-- `endpointSliceInfo`. -/
structure EndpointSliceInfo where
  ports : List EndpointPort
  endpoints : List EndpointInfo
  remove : Bool
  deriving DecidableEq

/-- `BaseEndpointInfo`: `endpoint` is the `ip:port` string, `ip` what `IP()` reads back of it. -/
structure BaseEndpointInfo where
  endpoint : String
  ip : String
  isLocal : Bool
  topology : Finmap fun _ : String => String
  zoneHints : Option (Finset String)
  ready : Bool
  serving : Bool
  terminating : Bool

/-- `EndpointsMap`: the endpoints of each Service port. -/
abbrev EndpointsMap := AList fun _ : ServicePortName => List BaseEndpointInfo

/-- `endpointSliceTracker`: the slices of a Service applied by the proxier, and those pending. -/
structure EndpointSliceTracker where
  applied : AList fun _ : String => EndpointSliceInfo
  pending : AList fun _ : String => EndpointSliceInfo

/-- `EndpointSliceCache.trackerByServiceMap`. -/
structure EndpointSliceCache where
  trackerByServiceMap : AList fun _ : NamespacedName => EndpointSliceTracker

/-- `endpointsChange`. -/
structure EndpointsChange where
  previous : EndpointsMap
  current : EndpointsMap

/-- What a cache is made with: the node's `hostname`, the proxier's `ipFamily`, whether the
`TopologyAwareHints` feature gate is on, and `ipPart`, `utilproxy.IPPart` of an endpoint string
read on its host (`net.ParseIP(host).String()`, `""` when the host is no IP). -/
structure CacheConfig where
  hostname : String
  ipFamily : IPFamily
  topologyAwareHints : Bool
  ipPart : String → String

variable (cfg : CacheConfig)

/-- `discovery.LabelServiceName`. -/
def labelServiceName : String := "kubernetes.io/service-name"

/-- `v1.LabelHostname`. -/
def labelHostname : String := "kubernetes.io/hostname"

/-- `supportedEndpointSliceAddressTypes.Has(addressType)`. -/
def supportedAddressType : AddressType → Bool
  | .ipv4 => true
  | .ipv6 => true
  | .fqdn => false

/-- `endpointSliceCacheKeys(endpointSlice)`: the Service's key and the slice's, or the error. -/
def endpointSliceCacheKeys (slice : EndpointSlice) : Except String (NamespacedName × String) :=
  match slice.serviceName with
  | some serviceName =>
    if serviceName = "" then
      .error ("No " ++ labelServiceName ++ " label set on endpoint slice: " ++ slice.name)
    else if slice.«namespace» = "" ∨ slice.name = "" then
      .error "Expected EndpointSlice name and namespace to be set"
    else .ok (⟨slice.«namespace», serviceName⟩, slice.name)
  | none => .error ("No " ++ labelServiceName ++ " label set on endpoint slice: " ++ slice.name)

/-- `sort.Sort(byPort(ports))`, by port number; every port it compares is set
(`EndpointSlice.ports_set`). -/
def sortByPort (ports : List EndpointPort) : List EndpointPort :=
  ports.insertionSort fun a b => (a.port.map Int32.toInt).getD 0 ≤ (b.port.map Int32.toInt).getD 0

/-- `sort.Sort(byAddress(endpoints))`, by the addresses joined with commas. -/
def sortByAddress (endpoints : List EndpointInfo) : List EndpointInfo :=
  endpoints.insertionSort fun a b => String.intercalate "," a.addresses ≤ String.intercalate "," b.addresses

/-- The `endpointInfo` of one endpoint of a slice, in `newEndpointSliceInfo`. -/
def newEndpointInfo (endpoint : SliceEndpoint) : EndpointInfo where
  addresses := endpoint.addresses
  firstAddressIsIPv6 := endpoint.firstAddressIsIPv6
  nodeName := endpoint.nodeName
  topology := endpoint.topology
  zoneHints := if cfg.topologyAwareHints ∧ endpoint.zones ≠ [] then some endpoint.zones.toFinset
    else none
  ready := endpoint.conditions.ready.getD true
  serving := endpoint.conditions.serving.getD true
  terminating := endpoint.conditions.terminating.getD false

/-- `newEndpointSliceInfo(endpointSlice, remove)`: the sorted ports, and the sorted endpoints
unless the slice is removed. -/
def newEndpointSliceInfo (slice : EndpointSlice) (remove : Bool) : EndpointSliceInfo where
  ports := sortByPort slice.ports
  endpoints := if remove then [] else sortByAddress (slice.endpoints.map (newEndpointInfo cfg))
  remove := remove

/-- `esInfoChanged(serviceKey, sliceKey, esInfo)`: whether the info differs from the pending one,
or else from the applied one; an unknown slice changes unless it is removed. -/
def esInfoChanged (cache : EndpointSliceCache) (serviceKey : NamespacedName) (sliceKey : String)
    (esInfo : EndpointSliceInfo) : Bool :=
  match cache.trackerByServiceMap.lookup serviceKey with
  | some tracker =>
    match tracker.pending.lookup sliceKey, tracker.applied.lookup sliceKey with
    | some pendingInfo, _ => esInfo != pendingInfo
    | none, some appliedInfo => esInfo != appliedInfo
    | none, none => !esInfo.remove
  | none => !esInfo.remove

/-- `updatePending(endpointSlice, remove)`: the cache, and whether the slice's info is now
pending. -/
def updatePending (cache : EndpointSliceCache) (slice : EndpointSlice) (remove : Bool) :
    EndpointSliceCache × Bool :=
  match endpointSliceCacheKeys slice with
  | .error _ => (cache, false)
  | .ok (serviceKey, sliceKey) =>
    let esInfo := newEndpointSliceInfo cfg slice remove
    let trackers := match cache.trackerByServiceMap.lookup serviceKey with
      | some _ => cache.trackerByServiceMap
      | none => cache.trackerByServiceMap.insert serviceKey ⟨∅, ∅⟩
    let cache : EndpointSliceCache := ⟨trackers⟩
    if esInfoChanged cache serviceKey sliceKey esInfo then
      match trackers.lookup serviceKey with
      | some tracker =>
        (⟨trackers.insert serviceKey { tracker with pending := tracker.pending.insert sliceKey esInfo }⟩,
          true)
      | none => (cache, true)
    else (cache, false)

/-- `EndpointChangeTracker.EndpointSliceUpdate(endpointSlice, removeSlice)`: slices of an address
type kube-proxy does not handle, and slices without keys, change nothing. -/
def endpointSliceUpdate (cache : EndpointSliceCache) (slice : EndpointSlice) (removeSlice : Bool) :
    EndpointSliceCache × Bool :=
  if !supportedAddressType slice.addressType then (cache, false)
  else
    match endpointSliceCacheKeys slice with
    | .error _ => (cache, false)
    | .ok _ => updatePending cfg cache slice removeSlice

/-- `isLocal(hostname)`. -/
def isLocal (hostname : String) : Bool :=
  0 < cfg.hostname.length && hostname == cfg.hostname

/-- `net.JoinHostPort(host, strconv.Itoa(port))`. -/
def joinHostPort (host : String) (port : ℤ) : String :=
  if host.contains ':' then "[" ++ host ++ "]:" ++ toString port else host ++ ":" ++ toString port

/-- `newBaseEndpointInfo(IP, port, isLocal, topology, ready, serving, terminating, zoneHints)`. -/
def newBaseEndpointInfo (ip : String) (port : ℤ) (isLocal : Bool)
    (topology : Finmap fun _ : String => String) (ready serving terminating : Bool)
    (zoneHints : Option (Finset String)) : BaseEndpointInfo where
  endpoint := joinHostPort ip port
  ip := cfg.ipPart ip
  isLocal := isLocal
  topology := topology
  zoneHints := zoneHints
  ready := ready
  serving := serving
  terminating := terminating

/-- `addEndpointsByIP(serviceNN, portNum, endpointsByIP, endpoints)`: each endpoint with an
address of the proxier's family, by IP; of two endpoints with one IP, the first is kept unless the
second is local. -/
def addEndpointsByIP (portNum : ℤ) (endpointsByIP : AList fun _ : String => BaseEndpointInfo)
    (endpoints : List EndpointInfo) : AList fun _ : String => BaseEndpointInfo :=
  endpoints.foldl (fun endpointsByIP endpoint =>
    match endpoint.addresses with
    | [] => endpointsByIP
    | address :: _ =>
      if (cfg.ipFamily = .ipv6) ≠ (endpoint.firstAddressIsIPv6 = true) then endpointsByIP
      else
        let isLocal := match endpoint.nodeName with
          | some nodeName => isLocal cfg nodeName
          | none => isLocal cfg ((endpoint.topology.lookup labelHostname).getD "")
        let endpointInfo := newBaseEndpointInfo cfg address portNum isLocal endpoint.topology
          endpoint.ready endpoint.serving endpoint.terminating endpoint.zoneHints
        if endpointsByIP.lookup endpointInfo.ip = none ∨ isLocal then
          endpointsByIP.insert endpointInfo.ip endpointInfo
        else endpointsByIP) endpointsByIP

/-- `endpointInfoByServicePort(serviceNN, sliceInfoByName)`, the slices taken in the order
given: the endpoints of each named, numbered port of each slice, by Service port and IP. -/
def endpointInfoByServicePort (serviceNN : NamespacedName) (slices : List EndpointSliceInfo) :
    AList fun _ : ServicePortName => AList fun _ : String => BaseEndpointInfo :=
  slices.foldl (fun endpointInfoBySP sliceInfo =>
    sliceInfo.ports.foldl (fun endpointInfoBySP port =>
      match port.name, port.port with
      | some name, some portNum =>
        if portNum = 0 then endpointInfoBySP
        else
          let svcPortName : ServicePortName := ⟨serviceNN, name, port.protocol⟩
          endpointInfoBySP.insert svcPortName (addEndpointsByIP cfg portNum.toInt
            ((endpointInfoBySP.lookup svcPortName).getD ∅) sliceInfo.endpoints)
      | _, _ => endpointInfoBySP) endpointInfoBySP) ∅

/-- `sort.Sort(byIP(endpoints))`, by endpoint string. -/
def sortByIP (endpoints : List BaseEndpointInfo) : List BaseEndpointInfo :=
  endpoints.insertionSort fun a b => a.endpoint ≤ b.endpoint

/-- `endpointsMapFromEndpointInfo(endpointInfoBySP)`: each Service port with some endpoints, to
its endpoints sorted. -/
def endpointsMapFromEndpointInfo
    (endpointInfoBySP : AList fun _ : ServicePortName => AList fun _ : String => BaseEndpointInfo) :
    EndpointsMap :=
  endpointInfoBySP.entries.foldl (fun endpointsMap entry =>
    if entry.2.entries ≠ [] then
      endpointsMap.insert entry.1 (sortByIP (entry.2.entries.map Sigma.snd))
    else endpointsMap) ∅

/-- `getEndpointsMap(serviceNN, sliceInfoByName)`, the slices taken in the order given. -/
def getEndpointsMap (serviceNN : NamespacedName) (slices : List EndpointSliceInfo) :
    EndpointsMap :=
  endpointsMapFromEndpointInfo (endpointInfoByServicePort cfg serviceNN slices)

/-- The slices of a tracker, in the order its map's entries come. -/
def sliceInfos (sliceInfoByName : AList fun _ : String => EndpointSliceInfo) :
    List EndpointSliceInfo :=
  sliceInfoByName.entries.map Sigma.snd

/-- The body of `checkoutChanges`' loop over the pending slices of a tracker: a removed slice
leaves the applied ones, another one replaces the applied slice of its name. -/
def applyPending (applied : AList fun _ : String => EndpointSliceInfo)
    (entry : Σ _ : String, EndpointSliceInfo) : AList fun _ : String => EndpointSliceInfo :=
  if entry.2.remove then applied.erase entry.1 else applied.insert entry.1 entry.2

/-- The body of `checkoutChanges`' loop, for the tracker of one Service: nothing when it has no
pending slice; otherwise the change of its endpoints, and the tracker with every pending slice
applied. -/
def checkoutService
    (acc : List EndpointsChange × AList fun _ : NamespacedName => EndpointSliceTracker)
    (entry : Σ _ : NamespacedName, EndpointSliceTracker) :
    List EndpointsChange × AList fun _ : NamespacedName => EndpointSliceTracker :=
  let esTracker := entry.2
  if esTracker.pending.entries = [] then acc
  else
    let previous := getEndpointsMap cfg entry.1 (sliceInfos esTracker.applied)
    let applied := esTracker.pending.entries.foldl applyPending esTracker.applied
    let current := getEndpointsMap cfg entry.1 (sliceInfos applied)
    (acc.1 ++ [⟨previous, current⟩], acc.2.insert entry.1 ⟨applied, ∅⟩)

/-- `checkoutChanges()`: a change for each Service with pending slices, and the cache with every
pending slice applied. -/
def checkoutChanges (cache : EndpointSliceCache) : List EndpointsChange × EndpointSliceCache :=
  let (changes, trackers) := cache.trackerByServiceMap.entries.foldl (checkoutService cfg)
    ([], cache.trackerByServiceMap)
  (changes, ⟨trackers⟩)

/-- `em.unmerge(other)`: the Service ports of `other` deleted. -/
def EndpointsMap.unmerge (em other : EndpointsMap) : EndpointsMap :=
  other.keys.foldl (fun em svcPortName => em.erase svcPortName) em

/-- `em.merge(other)`: `other`'s entries win. -/
def EndpointsMap.merge (em other : EndpointsMap) : EndpointsMap :=
  other ∪ em

/-- `em.apply(ect, ...)` and so `em.Update(ect)`, on the proxier's map: the changes checked out,
each Service's previous endpoints deleted and its current ones merged. -/
def EndpointsMap.update (em : EndpointsMap) (cache : EndpointSliceCache) :
    EndpointsMap × EndpointSliceCache :=
  let (changes, cache) := checkoutChanges cfg cache
  (changes.foldl (fun em change => (em.unmerge change.previous).merge change.current) em, cache)

/-! ## Two slices listing one IP -/

/-- A cache on the node `node-a`, for IPv4, without topology hints, reading an address as its IP. -/
def nodeACache : CacheConfig := ⟨"node-a", .ipv4, false, id⟩

/-- A slice of `default/web` with the port `http` and one endpoint, at `10.0.0.1` on the node
`node-b`, ready or not: an endpoint moving between two slices. -/
def movingSlice (ready : Bool) : EndpointSliceInfo :=
  ⟨[⟨some "http", .tcp, some 80⟩],
    [⟨["10.0.0.1"], false, some "node-b", ∅, none, ready, true, false⟩], false⟩

/-- **The endpoints depend on the order of the slices**: with the ready and the not-ready copy of
one endpoint on another node, the first slice `getEndpointsMap` ranges over wins. -/
theorem getEndpointsMap_depends_on_order :
    ((getEndpointsMap nodeACache ⟨"default", "web"⟩ [movingSlice true, movingSlice false]).lookup
        ⟨⟨"default", "web"⟩, "http", .tcp⟩).map (List.map BaseEndpointInfo.ready) = some [true] ∧
      ((getEndpointsMap nodeACache ⟨"default", "web"⟩ [movingSlice false, movingSlice true]).lookup
        ⟨⟨"default", "web"⟩, "http", .tcp⟩).map (List.map BaseEndpointInfo.ready) = some [false] :=
  ⟨rfl, rfl⟩

end Kubernetes.Proxy
