import Mathlib

/-!
# Cluster IPs in the Service registry

`REST.Update` (`pkg/registry/core/service/storage/rest.go`) allocates the cluster IPs a Service
gains in an update (`handleClusterIPsForUpdatedService`: a type change away from `ExternalName`,
an upgrade to dual stack) before it writes the Service, and collects those it loses (a type
change to `ExternalName`, a downgrade) to release after. Its deferred cleanup releases what it
allocated unless `allocated` was cleared, and releases what it collected if `performRelease` was
set; both are done after `rs.services.Update`, whatever that returned.

So a failed storage write keeps the IPs the update allocated, and releases those the old Service,
still stored, holds (`update_storageError`): the allocators do not come back to where they were
(`update_storageError_keeps_new_ip`).

A per-family allocator is the set of IPs it holds. Its range says which IPs it may hand out, and
`allocateNext` is the free IP `AllocateNext` picks, whichever it is. The Service is one whose IP
fields `tryDefaultValidateServiceClusterIPFields` has defaulted and validated; the node ports and
health check node port, handled between the allocation and the write, are the step
`nodePortsOk` that may fail.
-/

namespace Kubernetes.ServiceRegistry

/-- `api.ServiceType`. -/
inductive ServiceType
  | clusterIP
  | nodePort
  | loadBalancer
  | externalName
  deriving DecidableEq

/-- `api.IPFamily`. -/
inductive IPFamily
  | ipv4
  | ipv6
  deriving DecidableEq

/-- The IP fields of a Service's spec. -/
structure ServiceSpec where
  type : ServiceType
  clusterIP : String
  clusterIPs : List String
  ipFamilies : List IPFamily
  deriving DecidableEq

/-- The range of a cluster IP allocator: the IPs it may hand out, and the one `AllocateNext` picks
among those the allocator does not hold, if any. -/
structure IPRange where
  contains : String → Bool
  allocateNext : Finset String → Option String
  allocateNext_spec : ∀ allocated ip, allocateNext allocated = some ip →
    ip ∉ allocated ∧ contains ip = true

/-- The registry's cluster IP configuration: the `IPv6DualStack` feature gate, the default family
and the range of each family. -/
structure RegistryConfig where
  dualStack : Bool
  defaultServiceIPFamily : IPFamily
  ranges : IPFamily → IPRange

/-- `serviceIPAllocatorsByFamily`: the IPs each family's allocator holds. -/
abbrev Allocators := IPFamily → Finset String

/-- `api.ClusterIPNone`. -/
def clusterIPNone : String := "None"

variable (cfg : RegistryConfig)

/-- One step of `allocClusterIPs`' loop: `AllocateNext` for an empty IP, `Allocate` for a given
one; the IPs allocated so far, the allocators, and the error that ends the loop. -/
def allocClusterIP (acc : List (IPFamily × String) × Allocators × Option String)
    (entry : IPFamily × String) : List (IPFamily × String) × Allocators × Option String :=
  match acc with
  | (allocated, allocators, some err) => (allocated, allocators, some err)
  | (allocated, allocators, none) =>
    let (family, ip) := entry
    if ip = "" then
      match (cfg.ranges family).allocateNext (allocators family) with
      | some allocatedIP =>
        (allocated ++ [(family, allocatedIP)],
          Function.update allocators family (insert allocatedIP (allocators family)), none)
      | none => (allocated, allocators, some "failed to allocate a serviceIP: range is full")
    else if (cfg.ranges family).contains ip ∧ ip ∉ allocators family then
      (allocated ++ [(family, ip)], Function.update allocators family (insert ip (allocators family)),
        none)
    else (allocated, allocators, some ("failed to allocated ip:" ++ ip))

/-- `allocClusterIPs(service, toAlloc)`, the families in the order given: what it allocated, even
when it fails, the allocators after, and its error. -/
def allocClusterIPs (allocators : Allocators) (toAlloc : List (IPFamily × String)) :
    List (IPFamily × String) × Allocators × Option String :=
  toAlloc.foldl (allocClusterIP cfg) ([], allocators, none)

/-- `releaseClusterIPs(toRelease)`: each IP given back to its family's allocator. -/
def releaseClusterIPs (allocators : Allocators) (toRelease : List (IPFamily × String)) :
    Allocators :=
  toRelease.foldl (fun allocators entry =>
    Function.update allocators entry.1 ((allocators entry.1).erase entry.2)) allocators

/-- The Service's spec with the allocated IPs set, as `allocServiceClusterIPs` sets them. -/
def setClusterIPs (spec : ServiceSpec) (clusterIPs : List String)
    (allocated : List (IPFamily × String)) : ServiceSpec :=
  let clusterIPs := spec.ipFamilies.zipIdx.map fun (family, i) =>
    ((allocated.lookup family).getD (clusterIPs.getD i ""))
  { spec with clusterIPs := clusterIPs, clusterIP := clusterIPs.headD spec.clusterIP }

/-- `allocServiceClusterIPs(service)`: nothing for an `ExternalName` or headless Service; with the
dual-stack gate off, the default family's IP (`allocServiceClusterIP`); otherwise an IP of each
of its families. -/
def allocServiceClusterIPs (allocators : Allocators) (spec : ServiceSpec) :
    List (IPFamily × String) × Allocators × Option String × ServiceSpec :=
  if spec.type = .externalName then ([], allocators, none, spec)
  else if spec.clusterIPs.head? = some clusterIPNone then ([], allocators, none, spec)
  else if !cfg.dualStack then
    let (allocated, allocators, err) :=
      allocClusterIPs cfg allocators [(cfg.defaultServiceIPFamily, spec.clusterIP)]
    let ip := (allocated.lookup cfg.defaultServiceIPFamily).getD ""
    (allocated, allocators, err,
      if err.isNone then { spec with clusterIP := ip, clusterIPs := [ip] } else spec)
  else
    let toAlloc := spec.ipFamilies.zipIdx.map fun (family, i) => (family, spec.clusterIPs.getD i "")
    let (allocated, allocators, err) := allocClusterIPs cfg allocators toAlloc
    (allocated, allocators, err,
      if err.isNone then setClusterIPs spec (toAlloc.map Prod.snd) allocated else spec)

/-- What `handleClusterIPsForUpdatedService(oldService, service)` returns: the IPs it allocated,
those to release once the update succeeds, its error, and the updated Service. -/
structure HandledIPs where
  allocated : List (IPFamily × String)
  toRelease : List (IPFamily × String)
  err : Option String
  spec : ServiceSpec

/-- `handleClusterIPsForUpdatedService(oldService, service)`, with the allocators after it:
a change from `ExternalName` allocates all, a change to `ExternalName` releases all, an upgrade
to dual stack allocates the second family's IP, a downgrade releases it. -/
def handleClusterIPsForUpdatedService (allocators : Allocators) (old spec : ServiceSpec) :
    HandledIPs × Allocators :=
  if old.type = .externalName ∧ spec.type ≠ .externalName then
    let (allocated, allocators, err, spec) := allocServiceClusterIPs cfg allocators spec
    (⟨allocated, [], err, spec⟩, allocators)
  else if old.type ≠ .externalName ∧ spec.type = .externalName then
    let toRelease := if !cfg.dualStack then [(cfg.defaultServiceIPFamily, old.clusterIP)]
      else old.ipFamilies.zipIdx.map fun (family, i) => (family, old.clusterIPs.getD i "")
    (⟨[], toRelease, none, spec⟩, allocators)
  else if old.clusterIPs.head? = some clusterIPNone then (⟨[], [], none, spec⟩, allocators)
  else if !cfg.dualStack then (⟨[], [], none, spec⟩, allocators)
  else if old.ipFamilies.length = 1 ∧ spec.ipFamilies.length = 2 then
    let clusterIPs := if spec.clusterIPs.length < 2 then spec.clusterIPs ++ [""] else spec.clusterIPs
    let family := spec.ipFamilies.getD 1 .ipv4
    let (allocated, allocators, err) :=
      allocClusterIPs cfg allocators [(family, clusterIPs.getD 1 "")]
    let clusterIPs := if err.isNone then clusterIPs.set 1 ((allocated.lookup family).getD "")
      else clusterIPs
    (⟨allocated, [], err, { spec with clusterIPs := clusterIPs }⟩, allocators)
  else if old.ipFamilies.length = 2 ∧ spec.ipFamilies.length = 1 then
    (⟨[], [(old.ipFamilies.getD 1 .ipv4, old.clusterIPs.getD 1 "")], none, spec⟩, allocators)
  else (⟨[], [], none, spec⟩, allocators)

/-- The cluster IP side of `REST.Update(name, objInfo, ...)` for an existing Service `old` updated
to `spec`: the updated Service or the error, and the allocators after the deferred cleanup.
`nodePortsOk` is whether the node port and health check node port handling, between the
allocation and the write, succeeds; `storageOk` whether `rs.services.Update` does. -/
def update (allocators : Allocators) (old spec : ServiceSpec) (dryRun nodePortsOk storageOk : Bool) :
    Except String ServiceSpec × Allocators :=
  let (handled, allocatorsAfter) := if dryRun then (⟨[], [], none, spec⟩, allocators)
    else handleClusterIPsForUpdatedService cfg allocators old spec
  match handled.err with
  -- the deferred cleanup releases what was allocated, and nothing else
  | some err => (.error err, releaseClusterIPs allocatorsAfter handled.allocated)
  | none =>
    if !nodePortsOk then
      (.error "node ports", releaseClusterIPs allocatorsAfter handled.allocated)
    else
      -- `allocated = nil` and `performRelease = true`, whatever the write returned
      (if storageOk then .ok handled.spec else .error "storage",
        releaseClusterIPs allocatorsAfter handled.toRelease)

/-! ## A failed write -/

theorem mem_foldl_allocClusterIP (toAlloc : List (IPFamily × String))
    (acc : List (IPFamily × String) × Allocators × Option String)
    (hacc : ∀ family ip, (family, ip) ∈ acc.1 → ip ∈ acc.2.1 family) :
    ∀ family ip, (family, ip) ∈ (toAlloc.foldl (allocClusterIP cfg) acc).1 →
      ip ∈ (toAlloc.foldl (allocClusterIP cfg) acc).2.1 family := by
  induction toAlloc generalizing acc with
  | nil => exact hacc
  | cons entry toAlloc ih =>
    apply ih
    obtain ⟨allocated, allocators, err⟩ := acc
    have hgrow : ∀ f ip', (∀ family ip, (family, ip) ∈ allocated → ip ∈ allocators family) →
        ∀ family ip, (family, ip) ∈ allocated ++ [(f, ip')] →
          ip ∈ Function.update allocators f (insert ip' (allocators f)) family := by
      intro f ip' h family ip hmem
      rcases List.mem_append.mp hmem with hold | hnew
      · by_cases hf : family = f
        · subst hf
          simpa using .inr (h family ip hold)
        · simpa [hf] using h family ip hold
      · obtain ⟨rfl, rfl⟩ := List.mem_singleton.mp hnew
        simp
    cases err with
    | some err => exact hacc
    | none =>
      obtain ⟨family, ip⟩ := entry
      simp only [allocClusterIP]
      split_ifs
      · split
        · exact hgrow _ _ hacc
        · exact hacc
      · exact hgrow _ _ hacc
      · exact hacc

/-- Every IP `allocClusterIPs` reports allocated is held by its family's allocator. -/
theorem mem_allocClusterIPs (allocators : Allocators) (toAlloc : List (IPFamily × String))
    {family : IPFamily} {ip : String} (h : (family, ip) ∈ (allocClusterIPs cfg allocators toAlloc).1) :
    ip ∈ (allocClusterIPs cfg allocators toAlloc).2.1 family :=
  mem_foldl_allocClusterIP cfg toAlloc _ (fun _ _ h => absurd h List.not_mem_nil) family ip h

theorem mem_releaseClusterIPs (allocators : Allocators) (toRelease : List (IPFamily × String))
    (family : IPFamily) (ip : String) :
    ip ∈ releaseClusterIPs allocators toRelease family ↔
      ip ∈ allocators family ∧ (family, ip) ∉ toRelease := by
  induction toRelease generalizing allocators with
  | nil => simp [releaseClusterIPs]
  | cons entry toRelease ih =>
    rw [releaseClusterIPs, List.foldl_cons, ← releaseClusterIPs, ih]
    by_cases hf : family = entry.1
    · subst hf
      by_cases hip : ip = entry.2
      · subst hip
        simp
      · simp [hip, Prod.ext_iff]
    · simp [hf, Prod.ext_iff]

/-- `handleClusterIPsForUpdatedService` either allocates or collects IPs to release, never
both. -/
theorem handleClusterIPsForUpdatedService_spec (allocators : Allocators) (old spec : ServiceSpec) :
    (handleClusterIPsForUpdatedService cfg allocators old spec).1.toRelease = [] ∧
      (∀ family ip, (family, ip) ∈ (handleClusterIPsForUpdatedService cfg allocators old spec).1.allocated →
        ip ∈ (handleClusterIPsForUpdatedService cfg allocators old spec).2 family) ∨
    (handleClusterIPsForUpdatedService cfg allocators old spec).1.allocated = [] ∧
      (handleClusterIPsForUpdatedService cfg allocators old spec).2 = allocators := by
  unfold handleClusterIPsForUpdatedService
  by_cases hfrom : old.type = .externalName ∧ spec.type ≠ .externalName
  · -- from `ExternalName`: the Service's IPs are allocated
    rw [if_pos hfrom]
    left
    refine ⟨rfl, fun family ip h => ?_⟩
    unfold allocServiceClusterIPs at h ⊢
    split_ifs at h ⊢
    · simp at h
    · simp at h
    · exact mem_allocClusterIPs cfg _ _ h
    · exact mem_allocClusterIPs cfg _ _ h
  rw [if_neg hfrom]
  by_cases hto : old.type ≠ .externalName ∧ spec.type = .externalName
  · rw [if_pos hto]
    exact .inr ⟨rfl, rfl⟩
  rw [if_neg hto]
  by_cases hheadless : old.clusterIPs.head? = some clusterIPNone
  · rw [if_pos hheadless]
    exact .inr ⟨rfl, rfl⟩
  rw [if_neg hheadless]
  by_cases hgate : !cfg.dualStack
  · rw [if_pos hgate]
    exact .inr ⟨rfl, rfl⟩
  rw [if_neg hgate]
  by_cases hup : old.ipFamilies.length = 1 ∧ spec.ipFamilies.length = 2
  · -- an upgrade to dual stack allocates the second family's IP
    rw [if_pos hup]
    exact .inl ⟨rfl, fun family ip h => mem_allocClusterIPs cfg _ _ h⟩
  rw [if_neg hup]
  by_cases hdown : old.ipFamilies.length = 2 ∧ spec.ipFamilies.length = 1
  · rw [if_pos hdown]
    exact .inr ⟨rfl, rfl⟩
  rw [if_neg hdown]
  exact .inr ⟨rfl, rfl⟩

/-- When `rs.services.Update` fails, `REST.Update` returns the error, yet every IP it allocated
stays allocated and every IP it collected from the old Service, which is still stored, is
released. -/
theorem update_storageError {allocators : Allocators} {old spec : ServiceSpec}
    (herr : (handleClusterIPsForUpdatedService cfg allocators old spec).1.err = none) :
    let handled := (handleClusterIPsForUpdatedService cfg allocators old spec).1
    (update cfg allocators old spec false true false).1 = .error "storage" ∧
      (∀ family ip, (family, ip) ∈ handled.allocated →
        ip ∈ (update cfg allocators old spec false true false).2 family) ∧
      (∀ family ip, (family, ip) ∈ handled.toRelease →
        ip ∉ (update cfg allocators old spec false true false).2 family) := by
  intro handled
  have hupdate : update cfg allocators old spec false true false =
      (.error "storage", releaseClusterIPs (handleClusterIPsForUpdatedService cfg allocators old spec).2
        handled.toRelease) := by
    simp [update, handled, herr]
  rw [hupdate]
  refine ⟨rfl, fun family ip h => ?_, fun family ip h hmem => ?_⟩
  · rcases handleClusterIPsForUpdatedService_spec cfg allocators old spec with ⟨hnil, hmem⟩ | ⟨hnil, -⟩
    · rw [mem_releaseClusterIPs, hnil]
      exact ⟨hmem family ip h, List.not_mem_nil⟩
    · rw [hnil] at h
      exact absurd h List.not_mem_nil
  · exact ((mem_releaseClusterIPs _ _ family ip).mp hmem).2 h

/-- An IPv4 range of the three IPs `10.0.0.1` to `10.0.0.3`, handing out the first free one. -/
def smallRange : IPRange where
  contains ip := decide (ip ∈ ["10.0.0.1", "10.0.0.2", "10.0.0.3"])
  allocateNext allocated := ["10.0.0.1", "10.0.0.2", "10.0.0.3"].find? (· ∉ allocated)
  allocateNext_spec allocated ip h := by
    have hmem := List.mem_of_find?_eq_some h
    have hfree := List.find?_some h
    simp only [decide_eq_true_eq] at hfree
    exact ⟨hfree, by simpa using hmem⟩

/-- A single-stack IPv4 registry over `smallRange`. -/
def smallRegistry : RegistryConfig := ⟨true, .ipv4, fun _ => smallRange⟩

/-- An `ExternalName` Service changed to `ClusterIP`, whose write fails: the update returns an
error, and `10.0.0.1` stays allocated to no stored Service. -/
theorem update_storageError_keeps_new_ip :
    (update smallRegistry (fun _ => ∅) ⟨.externalName, "", [], []⟩ ⟨.clusterIP, "", [], [.ipv4]⟩
        false true false).1 = .error "storage" ∧
      (update smallRegistry (fun _ => ∅) ⟨.externalName, "", [], []⟩ ⟨.clusterIP, "", [], [.ipv4]⟩
        false true false).2 .ipv4 = {"10.0.0.1"} := by
  decide

end Kubernetes.ServiceRegistry
