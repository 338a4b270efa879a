import Mathlib
import Kubernetes.PortAllocator.Operation

/-!
# The node port repair controller

`pkg/registry/core/service/portallocator/controller/repair.go`. `runOnce` rebuilds the port
allocations from the services listed. A port a service uses is allocated in a new allocator and
released from the one `NewFromSnapshot` rebuilt from the stored snapshot; a port left in the stored
one after that appears leaked. `c.leaks` counts a leaked port down from
`numRepairsBeforeLeakCleanup - 1`, and the rebuilt snapshot keeps the port while the count is
positive. `RunOnce` retries `runOnce` on a conflict, `DefaultBackoff.Steps` times at most.

The reads of the stored snapshot and of the services are taken as given (`RepairRead`), with the
result of `CreateOrUpdate`; their own errors, the events recorded and the messages logged are left
out.

* `runOnce_spec`: what one attempt writes, and the counts it leaves; `RunOnce_eq`: an execution
  is a run of attempts, all but the last of which conflict.
* `runAttempts_leaks`: over any attempts, the count at a port is `leakCount` of its sightings: the
  attempts that found it leaked since one last found a service using it.
* `runOnce_written_has_iff`: a port of the stored snapshot that no service uses is written back
  exactly while it has been seen leaked fewer than `numRepairsBeforeLeakCleanup - 1` times before.
  The sightings count attempts, conflicts included, and need not be consecutive: the counts are
  never cleared when the port leaves the snapshot (`RunOnce_drops_port_seen_leaked_twice`).
-/

namespace Kubernetes.Registry

open Allocator Bitset

/-- `PortAllocator.ForEach(fn)`: the ports it calls `fn` with, in order, `wordSize` as for the
bitmap's `ForEach`. -/
def PortAllocator.forEach (r : PortAllocator) (wordSize : ℕ) : List ℤ :=
  (r.alloc.forEach wordSize).map fun (offset : ℕ) => r.portRange.base + offset

/-! ## Services -/

/-- What `collectServiceNodePorts` reads of a service port: its node port and protocol. -/
structure ServicePort where
  nodePort : ℤ
  protocol : String
  deriving DecidableEq

/-- What the repair reads of a service: its ports and its health check node port. -/
structure Service where
  ports : List ServicePort
  healthCheckNodePort : ℤ
  deriving DecidableEq

/-- One port of `collectServiceNodePorts`' loop: the node ports collected, and the protocols seen
for each node port. -/
def collectStep (acc : List ℤ × (ℤ → Option (List String))) (port : ServicePort) :
    List ℤ × (ℤ → Option (List String)) :=
  let (servicePorts, seen) := acc
  if port.nodePort = 0 then acc
  else
    match seen port.nodePort with
    | none => (servicePorts ++ [port.nodePort], Function.update seen port.nodePort (some [port.protocol]))
    | some s =>
      if port.protocol ∈ s then (servicePorts ++ [port.nodePort], seen)
      else (servicePorts, Function.update seen port.nodePort (some (port.protocol :: s)))

/-- `collectServiceNodePorts(service)`: a node port once per protocol, and the health check node
port unless only other protocols than TCP use it. -/
def collectServiceNodePorts (service : Service) : List ℤ :=
  let (servicePorts, seen) := service.ports.foldl collectStep ([], fun _ => none)
  let healthPort := service.healthCheckNodePort
  if healthPort ≠ 0 then
    match seen healthPort with
    | none => servicePorts ++ [healthPort]
    | some s => if "TCP" ∈ s then servicePorts ++ [healthPort] else servicePorts
  else servicePorts

/-! ## `runOnce` and `RunOnce` -/

/-- `numRepairsBeforeLeakCleanup`. -/
def numRepairsBeforeLeakCleanup : ℤ := 3

/-- `retry.DefaultBackoff.Steps`: the attempts `RetryOnConflict` makes. -/
def defaultBackoffSteps : ℕ := 4

/-- What the repair keeps: its port range, and `c.leaks`, the count of each leaked port. -/
structure Repair where
  portRange : PortRange
  leaks : ℤ → Option ℤ

/-- What `c.alloc.CreateOrUpdate(snapshot)` returns. -/
inductive PersistResult
  | ok
  | conflict
  | failed
  deriving DecidableEq

/-- What one `runOnce` reads: the allocator `NewFromSnapshot` rebuilt from the stored snapshot,
the services listed, and what `CreateOrUpdate` returns. -/
structure RepairRead where
  stored : PortAllocator
  services : List Service
  persist : PersistResult

/-- Why `runOnce` fails once its reads succeeded: the range is full, the write conflicts, or the
write fails. -/
inductive RepairError
  | rangeFull (portRange : String)
  | conflict
  | persistFailed
  deriving DecidableEq

/-- What the loop over the services' ports carries: the stored allocator, the rebuilt one, and
`c.leaks`. -/
structure RepairScan where
  stored : PortAllocator
  rebuilt : PortAllocator
  leaks : ℤ → Option ℤ

/-- `runOnce`'s loop over the services' node ports. A port `rebuilt.Allocate` takes is released
from `stored` and is no longer counted as leaked; a duplicate or a port out of the range is only
reported; `ErrFull` ends the run. -/
def repairPorts (portRange : PortRange) : RepairScan → List ℤ → Except RepairError Unit × RepairScan
  | scan, [] => (.ok (), scan)
  | scan, port :: ports =>
    match scan.rebuilt.allocate port with
    | (.ok (), rebuilt) =>
      repairPorts portRange
        { stored := if scan.stored.has port then scan.stored.release port else scan.stored
          rebuilt
          leaks := Function.update scan.leaks port none } ports
    | (.error .full, _) => (.error (.rangeFull portRange.toString), scan)
    | (.error _, _) => repairPorts portRange scan ports

/-- The leak check of one port left in `stored`. A port not counted yet is flagged with
`numRepairsBeforeLeakCleanup - 1` and falls through to the next case: while its count is positive
it is counted down and kept in `rebuilt`. A port whose count ran out is left out. -/
def checkLeakedPort (scan : PortAllocator × (ℤ → Option ℤ)) (port : ℤ) :
    PortAllocator × (ℤ → Option ℤ) :=
  let keep (count : ℤ) := ((scan.1.allocate port).2, Function.update scan.2 port (some (count - 1)))
  match scan.2 port with
  | none => keep (numRepairsBeforeLeakCleanup - 1)
  | some count => if count > 0 then keep count else scan

/-- `stored.ForEach` with the leak check, `wordSize` as for the bitmap's `ForEach`. -/
def checkLeaked (wordSize : ℕ) (stored rebuilt : PortAllocator) (leaks : ℤ → Option ℤ) :
    PortAllocator × (ℤ → Option ℤ) :=
  (stored.forEach wordSize).foldl checkLeakedPort (rebuilt, leaks)

/-- `runOnce`, once the snapshot and the services are read: the allocator whose snapshot it
writes, or why it failed, and the repair with its new counts. -/
def runOnce (wordSize : ℕ) (c : Repair) (read : RepairRead) :
    Except RepairError PortAllocator × Repair :=
  match repairPorts c.portRange ⟨read.stored, PortAllocator.new c.portRange, c.leaks⟩
      (read.services.flatMap collectServiceNodePorts) with
  | (.error err, scan) => (.error err, { c with leaks := scan.leaks })
  | (.ok (), scan) =>
    let (rebuilt, leaks) := checkLeaked wordSize scan.stored scan.rebuilt scan.leaks
    match read.persist with
    | .ok => (.ok rebuilt, { c with leaks })
    | .conflict => (.error .conflict, { c with leaks })
    | .failed => (.error .persistFailed, { c with leaks })

/-- `RetryOnConflict(backoff, c.runOnce)` with `steps` attempts left, attempt `attempt` reading
`reads attempt`; when the attempts run out it returns the last error, a conflict. -/
def retryOnConflict (wordSize : ℕ) (reads : ℕ → RepairRead) :
    ℕ → ℕ → Repair → Except RepairError PortAllocator × Repair
  | 0, _, c => (.error .conflict, c)
  | steps + 1, attempt, c =>
    match runOnce wordSize c (reads attempt) with
    | (.error .conflict, c') => retryOnConflict wordSize reads steps (attempt + 1) c'
    | result => result

/-- `RunOnce()`. -/
def RunOnce (wordSize : ℕ) (c : Repair) (reads : ℕ → RepairRead) :
    Except RepairError PortAllocator × Repair :=
  retryOnConflict wordSize reads defaultBackoffSteps 0 c

/-! ## The ports a service uses -/

theorem collectStep_spec (acc : List ℤ × (ℤ → Option (List String))) (port : ServicePort)
    (h : ∀ q, acc.2 q = none ↔ q ∉ acc.1) :
    (∀ q, q ∈ (collectStep acc port).1 ↔ q ∈ acc.1 ∨ port.nodePort ≠ 0 ∧ q = port.nodePort) ∧
      ∀ q, (collectStep acc port).2 q = none ↔ q ∉ (collectStep acc port).1 := by
  obtain ⟨servicePorts, seen⟩ := acc
  simp only at h
  by_cases h0 : port.nodePort = 0
  · simp only [collectStep, h0, if_true]
    exact ⟨fun q => by simp, h⟩
  cases hs : seen port.nodePort with
  | none =>
    simp only [collectStep, h0, if_false, hs]
    refine ⟨fun q => by simp [h0], fun q => ?_⟩
    by_cases hq : q = port.nodePort
    · subst hq
      simp
    · simpa [hq] using h q
  | some s =>
    have hmem : port.nodePort ∈ servicePorts := by
      by_contra hn
      rw [(h _).mpr hn] at hs
      cases hs
    have hsame : ∀ q, q ∈ servicePorts ∨ port.nodePort ≠ 0 ∧ q = port.nodePort ↔ q ∈ servicePorts :=
      fun q => ⟨by rintro (hq | ⟨-, rfl⟩) <;> assumption, .inl⟩
    simp only [collectStep, h0, if_false, hs]
    split_ifs
    · refine ⟨fun q => by simp only [List.mem_append, List.mem_singleton, hsame]; aesop, fun q => ?_⟩
      rw [h q, List.mem_append, List.mem_singleton, not_or]
      exact ⟨fun hq => ⟨hq, fun e => hq (e ▸ hmem)⟩, And.left⟩
    · refine ⟨fun q => (hsame q).symm, fun q => ?_⟩
      by_cases hq : q = port.nodePort
      · subst hq
        simpa using hmem
      · simpa [hq] using h q

theorem foldl_collectStep (ports : List ServicePort) (acc : List ℤ × (ℤ → Option (List String)))
    (h : ∀ q, acc.2 q = none ↔ q ∉ acc.1) :
    (∀ q, q ∈ (ports.foldl collectStep acc).1 ↔
        q ∈ acc.1 ∨ q ≠ 0 ∧ q ∈ ports.map ServicePort.nodePort) ∧
      ∀ q, (ports.foldl collectStep acc).2 q = none ↔ q ∉ (ports.foldl collectStep acc).1 := by
  induction ports generalizing acc with
  | nil => simpa using h
  | cons port ports ih =>
    obtain ⟨hstep, hseen⟩ := collectStep_spec acc port h
    obtain ⟨hmem, hseen'⟩ := ih _ hseen
    refine ⟨fun q => ?_, hseen'⟩
    rw [List.foldl_cons, hmem, hstep]
    simp only [List.map_cons, List.mem_cons]
    constructor
    · rintro ((hq | ⟨h0, rfl⟩) | ⟨hq, hq'⟩)
      exacts [.inl hq, .inr ⟨h0, .inl rfl⟩, .inr ⟨hq, .inr hq'⟩]
    · rintro (hq | ⟨hq, rfl | hq'⟩)
      exacts [.inl (.inl hq), .inl (.inr ⟨hq, rfl⟩), .inr ⟨hq, hq'⟩]

/-- **The ports a service uses**: its node ports and its health check node port, but 0. -/
theorem mem_collectServiceNodePorts (service : Service) (q : ℤ) :
    q ∈ collectServiceNodePorts service ↔
      q ≠ 0 ∧ (q ∈ service.ports.map ServicePort.nodePort ∨ q = service.healthCheckNodePort) := by
  obtain ⟨hmem, hseen⟩ := foldl_collectStep service.ports ([], fun _ => none) (by simp)
  simp only [List.not_mem_nil, false_or] at hmem
  have hcollect : q ∈ collectServiceNodePorts service ↔
      q ∈ (service.ports.foldl collectStep ([], fun _ => none)).1 ∨
        service.healthCheckNodePort ≠ 0 ∧ q = service.healthCheckNodePort := by
    unfold collectServiceNodePorts
    rcases hr : service.ports.foldl collectStep ([], fun _ => none) with ⟨servicePorts, seen⟩
    rw [hr] at hseen
    simp only at hseen
    dsimp only
    split_ifs with hh
    · cases hs : seen service.healthCheckNodePort with
      | none => simp [hh]
      | some s =>
        have hcollected : service.healthCheckNodePort ∈ servicePorts := by
          by_contra hn
          rw [(hseen _).mpr hn] at hs
          cases hs
        dsimp only
        split_ifs
        · simp [hh]
        · exact ⟨.inl, by rintro (hq | ⟨-, rfl⟩) <;> assumption⟩
    · simp [hh]
  rw [hcollect, hmem]
  constructor
  · rintro (⟨hq, hq'⟩ | ⟨hh, rfl⟩)
    exacts [⟨hq, .inl hq'⟩, ⟨hh, .inr rfl⟩]
  · rintro ⟨hq, hq' | rfl⟩
    exacts [.inl ⟨hq, hq'⟩, .inr ⟨hq, rfl⟩]

/-! ## The allocators -/

namespace PortAllocator

theorem mem_forEach (r : PortAllocator) {wordSize : ℕ} (hw : 0 < wordSize) (p : ℤ) :
    p ∈ r.forEach wordSize ↔
      r.portRange.base ≤ p ∧ r.alloc.allocated.testBit (p - r.portRange.base).toNat := by
  rw [forEach, AllocationBitmap.forEach_eq _ hw, List.mem_map]
  constructor
  · rintro ⟨o, ho, rfl⟩
    exact ⟨by omega, by simpa using Nat.mem_bitIndices.mp ho⟩
  · rintro ⟨hb, ht⟩
    exact ⟨(p - r.portRange.base).toNat, Nat.mem_bitIndices.mpr ht, by omega⟩

theorem nodup_forEach (r : PortAllocator) {wordSize : ℕ} (hw : 0 < wordSize) :
    (r.forEach wordSize).Nodup := by
  rw [forEach, AllocationBitmap.forEach_eq _ hw]
  exact List.Nodup.map (fun a b h => by simpa using h) Nat.bitIndices_sorted.nodup

/-- A held port is listed by `ForEach`. -/
theorem mem_forEach_of_has (r : PortAllocator) {wordSize : ℕ} (hw : 0 < wordSize) {p : ℤ}
    (h : r.has p = true) : p ∈ r.forEach wordSize := by
  rw [has_eq, Bool.and_eq_true] at h
  simp only [PortRange.contains, decide_eq_true_eq] at h
  exact (r.mem_forEach hw p).mpr ⟨h.1.1, h.2⟩

/-- `Release` of a held port takes it, and only it, from what `ForEach` lists. -/
theorem mem_forEach_release (r : PortAllocator) {wordSize : ℕ} (hw : 0 < wordSize) {port : ℤ}
    (hport : r.has port = true) (p : ℤ) :
    p ∈ (r.release port).forEach wordSize ↔ p ∈ r.forEach wordSize ∧ p ≠ port := by
  have hc : r.portRange.contains port := by
    rw [has_eq, Bool.and_eq_true] at hport
    exact hport.1
  have hbase : r.portRange.base ≤ port :=
    (show r.portRange.base ≤ port ∧ _ by simpa [PortRange.contains] using hc).1
  simp only [release, contains, hc, if_true, Bool.not_true, Bool.false_eq_true, if_false]
  rw [mem_forEach _ hw, mem_forEach _ hw]
  simp only [withAlloc_portRange, withAlloc_alloc, AllocationBitmap.release_allocated, testBit_setBit]
  constructor
  · rintro ⟨hp, ht⟩
    split_ifs at ht with hoff
    exact ⟨⟨hp, ht⟩, fun h => hoff (by rw [h])⟩
  · rintro ⟨⟨hp, ht⟩, hne⟩
    refine ⟨hp, ?_⟩
    rwa [if_neg fun hoff => hne (by omega)]

/-- A successful `Allocate` is of a port of the range not held. -/
theorem allocate_fst_eq_ok (r : PortAllocator) (port : ℤ) :
    (r.allocate port).1 = .ok () ↔ r.portRange.contains port ∧ r.has port = false := by
  by_cases hc : r.portRange.contains port
  · rw [allocate_fst_of_contains r hc]
    cases r.has port <;> simp [hc]
  · simp [allocate, contains, hc]

/-- `Allocate` of a port never finds the range full. -/
theorem allocate_fst_ne_full (r : PortAllocator) (port : ℤ) : (r.allocate port).1 ≠ .error .full := by
  by_cases hc : r.portRange.contains port
  · rw [allocate_fst_of_contains r hc]
    split <;> simp
  · simp [allocate, contains, hc]

/-- After `Allocate`, a port of the range is held, whether it was taken now or before. -/
theorem has_allocate (r : PortAllocator) (port q : ℤ) :
    (r.allocate port).2.has q = (r.has q || decide (q = port) && r.portRange.contains port) := by
  by_cases hok : (r.allocate port).1 = .ok ()
  · obtain ⟨-, hr'⟩ := allocate_ok (Prod.ext hok rfl : r.allocate port = (.ok (), (r.allocate port).2))
    have hc := ((allocate_fst_eq_ok r port).mp hok).1
    rw [hr']
    by_cases hq : q = port <;> simp [hq, hc]
  · obtain ⟨e, he⟩ : ∃ e, (r.allocate port).1 = .error e := by
      cases h : (r.allocate port).1 with
      | error e => exact ⟨e, rfl⟩
      | ok u => exact absurd h hok
    rw [allocate_error (Prod.ext he rfl : r.allocate port = (.error e, (r.allocate port).2))]
    -- a port of the range that `Allocate` refuses is held already
    have hheld : r.portRange.contains port → r.has port = true := fun hc => by
      by_contra hfree
      exact hok ((allocate_fst_eq_ok r port).mpr ⟨hc, by simpa using hfree⟩)
    by_cases hq : q = port
    · subst hq
      cases hc : r.portRange.contains q
      · simp
      · simp [hheld hc]
    · simp [hq]

end PortAllocator

/-! ## The loop over the services' ports -/

/-- The ports of `ports` the loop takes into `rebuilt`: ports of the range not held before. -/
def takenPort (portRange : PortRange) (rebuilt : PortAllocator) (ports : List ℤ) (q : ℤ) : Bool :=
  portRange.contains q && decide (q ∈ ports) && !rebuilt.has q

theorem repairPorts_of_allocate_ok {portRange : PortRange} {scan : RepairScan} {port : ℤ}
    {ports : List ℤ} (hok : (scan.rebuilt.allocate port).1 = .ok ()) :
    repairPorts portRange scan (port :: ports) =
      repairPorts portRange
        { stored := if scan.stored.has port then scan.stored.release port else scan.stored
          rebuilt := (scan.rebuilt.allocate port).2
          leaks := Function.update scan.leaks port none } ports := by
  rw [repairPorts, (Prod.ext hok rfl : scan.rebuilt.allocate port = (.ok (), _))]

theorem repairPorts_of_allocate_error {portRange : PortRange} {scan : RepairScan} {port : ℤ}
    {ports : List ℤ} (hok : (scan.rebuilt.allocate port).1 ≠ .ok ()) :
    repairPorts portRange scan (port :: ports) = repairPorts portRange scan ports := by
  obtain ⟨e, he⟩ : ∃ e, (scan.rebuilt.allocate port).1 = .error e := by
    cases h : (scan.rebuilt.allocate port).1 with
    | error e => exact ⟨e, rfl⟩
    | ok u => exact absurd h hok
  have hfull := PortAllocator.allocate_fst_ne_full scan.rebuilt port
  rw [repairPorts, (Prod.ext he rfl : scan.rebuilt.allocate port = (.error e, _))]
  cases e with
  | full => exact absurd he hfull
  | allocated => rfl
  | notInRange => rfl
  | storage => rfl

/-- **The loop over the services' ports** never fails: it takes each port of the range that
`rebuilt` did not hold, releases it from `stored` and clears its count. -/
theorem repairPorts_spec {wordSize : ℕ} (hw : 0 < wordSize) (portRange : PortRange)
    (ports : List ℤ) (scan : RepairScan) (hpr : scan.rebuilt.portRange = portRange) :
    ∃ scan', repairPorts portRange scan ports = (.ok (), scan') ∧
      scan'.rebuilt.portRange = portRange ∧
      (∀ q, scan'.rebuilt.has q = (scan.rebuilt.has q || portRange.contains q && decide (q ∈ ports))) ∧
      (∀ q, scan'.stored.has q = (scan.stored.has q && !takenPort portRange scan.rebuilt ports q)) ∧
      (∀ q, q ∈ scan'.stored.forEach wordSize ↔ q ∈ scan.stored.forEach wordSize ∧
        ¬(scan.stored.has q = true ∧ takenPort portRange scan.rebuilt ports q = true)) ∧
      ∀ q, scan'.leaks q = if takenPort portRange scan.rebuilt ports q then none else scan.leaks q := by
  induction ports generalizing scan with
  | nil => exact ⟨scan, rfl, hpr, by simp, by simp [takenPort], by simp [takenPort], by simp [takenPort]⟩
  | cons port ports ih =>
    by_cases hok : (scan.rebuilt.allocate port).1 = .ok ()
    · -- the port is taken
      obtain ⟨hc, hfree⟩ := (PortAllocator.allocate_fst_eq_ok _ _).mp hok
      rw [hpr] at hc
      obtain ⟨scan', hrun, hpr', hreb, hhas, hmem, hleaks⟩ := ih
        { stored := if scan.stored.has port then scan.stored.release port else scan.stored
          rebuilt := (scan.rebuilt.allocate port).2
          leaks := Function.update scan.leaks port none } (by simpa using hpr)
      refine ⟨scan', (repairPorts_of_allocate_ok hok).trans hrun, hpr', fun q => ?_, fun q => ?_,
        fun q => ?_, fun q => ?_⟩
      · rw [hreb, PortAllocator.has_allocate, hpr]
        by_cases hq : q = port
        · simp [hq, hc]
        · simp [hq]
      · rw [hhas]
        simp only [takenPort, PortAllocator.has_allocate, hpr]
        by_cases hq : q = port
        · subst hq
          split_ifs with hs <;> simp [PortAllocator.has_release, hc, hfree, hs]
        · split_ifs with hs <;> simp [PortAllocator.has_release, hq]
      · rw [hmem]
        simp only [takenPort, PortAllocator.has_allocate, hpr]
        by_cases hq : q = port
        · subst hq
          split_ifs with hs
          · simp [PortAllocator.mem_forEach_release _ hw hs, hs, hc, hfree]
          · simp [hs, hc, hfree]
        · split_ifs with hs
          · simp [PortAllocator.mem_forEach_release _ hw hs, PortAllocator.has_release, hq]
          · simp [hq]
      · rw [hleaks]
        simp only [takenPort, PortAllocator.has_allocate, hpr]
        by_cases hq : q = port
        · simp [hq, hc, hfree]
        · simp [hq]
    · -- a duplicate, or a port out of the range: nothing changes
      have htaken : ¬(portRange.contains port = true ∧ scan.rebuilt.has port = false) := fun h =>
        hok ((PortAllocator.allocate_fst_eq_ok _ _).mpr (hpr ▸ h))
      obtain ⟨scan', hrun, hpr', hreb, hhas, hmem, hleaks⟩ := ih scan hpr
      have hsame : ∀ q, takenPort portRange scan.rebuilt (port :: ports) q =
          takenPort portRange scan.rebuilt ports q := fun q => by
        by_cases hq : q = port
        · subst hq
          cases hc : portRange.contains q <;> cases hh : scan.rebuilt.has q <;> simp_all [takenPort]
        · simp [takenPort, hq]
      refine ⟨scan', (repairPorts_of_allocate_error hok).trans hrun, hpr', fun q => ?_,
        fun q => by rw [hhas, hsame], fun q => by rw [hmem, hsame], fun q => by rw [hleaks, hsame]⟩
      rw [hreb]
      by_cases hq : q = port
      · subst hq
        cases hc : portRange.contains q <;> cases hh : scan.rebuilt.has q <;> simp_all
      · simp [hq]

/-! ## The leak check -/

/-- Whether the leak check keeps a port with this count: one not counted yet, or one whose count
is still positive. -/
def keepsLeak : Option ℤ → Bool
  | none => true
  | some count => decide (count > 0)

/-- The count the leak check leaves at a port it finds leaked. -/
def nextLeak : Option ℤ → Option ℤ
  | none => some (numRepairsBeforeLeakCleanup - 1 - 1)
  | some count => if count > 0 then some (count - 1) else some count

theorem checkLeakedPort_eq (rebuilt : PortAllocator) (leaks : ℤ → Option ℤ) (port : ℤ) :
    checkLeakedPort (rebuilt, leaks) port =
      (if keepsLeak (leaks port) then (rebuilt.allocate port).2 else rebuilt,
        Function.update leaks port (nextLeak (leaks port))) := by
  unfold checkLeakedPort
  dsimp only
  cases h : leaks port with
  | none => simp [keepsLeak, nextLeak]
  | some count =>
    by_cases hc : count > 0
    · simp [keepsLeak, nextLeak, hc]
    · simp [keepsLeak, nextLeak, hc, ← h]

/-- **The leak check** of distinct ports keeps in `rebuilt` those whose count allows it, and
counts each one down. -/
theorem foldl_checkLeakedPort (ports : List ℤ) (hnd : ports.Nodup) (rebuilt : PortAllocator)
    (leaks : ℤ → Option ℤ) :
    (ports.foldl checkLeakedPort (rebuilt, leaks)).1.portRange = rebuilt.portRange ∧
      (∀ q, (ports.foldl checkLeakedPort (rebuilt, leaks)).1.has q =
        (rebuilt.has q || decide (q ∈ ports) && keepsLeak (leaks q) && rebuilt.portRange.contains q)) ∧
      ∀ q, (ports.foldl checkLeakedPort (rebuilt, leaks)).2 q =
        if q ∈ ports then nextLeak (leaks q) else leaks q := by
  induction ports generalizing rebuilt leaks with
  | nil => simp
  | cons port ports ih =>
    obtain ⟨hport, hnd⟩ := List.nodup_cons.mp hnd
    rw [List.foldl_cons, checkLeakedPort_eq]
    obtain ⟨hpr, hhas, hleaks⟩ := ih hnd _ _
    refine ⟨by rw [hpr]; split_ifs <;> simp, fun q => ?_, fun q => ?_⟩
    · rw [hhas]
      by_cases hq : q = port
      · subst hq
        split_ifs with hk <;> simp [PortAllocator.has_allocate, hport, hk]
      · split_ifs with hk <;> simp [PortAllocator.has_allocate, hq]
    · rw [hleaks]
      by_cases hq : q = port
      · subst hq
        simp [hport]
      · simp [hq]

/-! ## One attempt -/

/-- The ports of the repair's range that the services of a read use: those `runOnce` allocates. -/
def usedPort (portRange : PortRange) (services : List Service) (q : ℤ) : Bool :=
  portRange.contains q && decide (q ∈ services.flatMap collectServiceNodePorts)

/-- The ports `runOnce` finds leaked: listed by the stored allocator, and not released for a
service. -/
def leakedPort (wordSize : ℕ) (portRange : PortRange) (read : RepairRead) (q : ℤ) : Bool :=
  decide (q ∈ read.stored.forEach wordSize) && !(read.stored.has q && usedPort portRange read.services q)

/-- The counts `runOnce` leaves: the count of a used port is cleared, then that of a leaked port
counted down. -/
def nextLeaks (wordSize : ℕ) (portRange : PortRange) (read : RepairRead) (leaks : ℤ → Option ℤ)
    (q : ℤ) : Option ℤ :=
  let count := if usedPort portRange read.services q then none else leaks q
  if leakedPort wordSize portRange read q then nextLeak count else count

@[simp] theorem PortAllocator.has_new (pr : PortRange) (q : ℤ) : (PortAllocator.new pr).has q = false := by
  simp [PortAllocator.has_eq, PortAllocator.new, AllocationBitmap.new]

/-- **What one attempt does**: it writes, if `CreateOrUpdate` succeeds, the ports the services
use and the leaked ports of the range whose count allows it, and leaves `nextLeaks`. -/
theorem runOnce_spec {wordSize : ℕ} (hw : 0 < wordSize) (c : Repair) (read : RepairRead) :
    ∃ written : PortAllocator, written.portRange = c.portRange ∧
      (∀ q, written.has q = (usedPort c.portRange read.services q ||
        leakedPort wordSize c.portRange read q && keepsLeak (c.leaks q) && c.portRange.contains q)) ∧
      (runOnce wordSize c read).1 = (match read.persist with
        | .ok => .ok written
        | .conflict => .error .conflict
        | .failed => .error .persistFailed) ∧
      (runOnce wordSize c read).2 = { c with leaks := nextLeaks wordSize c.portRange read c.leaks } := by
  obtain ⟨scan, hrun, hpr, hreb, -, hmem, hleaks⟩ := repairPorts_spec hw c.portRange
    (read.services.flatMap collectServiceNodePorts) ⟨read.stored, PortAllocator.new c.portRange, c.leaks⟩ rfl
  simp only at hreb hmem hleaks
  obtain ⟨hpr', hhas, hleaks'⟩ := foldl_checkLeakedPort _ (scan.stored.nodup_forEach hw) scan.rebuilt scan.leaks
  have htaken : ∀ q, takenPort c.portRange (PortAllocator.new c.portRange)
      (read.services.flatMap collectServiceNodePorts) q = usedPort c.portRange read.services q := by
    simp [takenPort, usedPort]
  have hleft : ∀ q, q ∈ scan.stored.forEach wordSize ↔ leakedPort wordSize c.portRange read q = true := by
    intro q
    rw [hmem]
    simp only [htaken, leakedPort]
    cases read.stored.has q <;> cases usedPort c.portRange read.services q <;> simp
  refine ⟨(checkLeaked wordSize scan.stored scan.rebuilt scan.leaks).1, by rw [checkLeaked, hpr', hpr],
    fun q => ?_, ?_, ?_⟩
  · rw [checkLeaked, hhas, hreb, hpr, hleaks, htaken, PortAllocator.has_new, Bool.false_or]
    change (usedPort c.portRange read.services q || _) = _
    cases usedPort c.portRange read.services q
    · simp [hleft]
    · simp
  · unfold runOnce
    rw [hrun]
    cases read.persist <;> rfl
  · unfold runOnce
    rw [hrun]
    have hleaksEq : (checkLeaked wordSize scan.stored scan.rebuilt scan.leaks).2 =
        nextLeaks wordSize c.portRange read c.leaks := by
      funext q
      rw [checkLeaked, hleaks', nextLeaks, hleaks, htaken]
      simp only [hleft]
    cases read.persist <;> simp [hleaksEq]

/-! ## Runs of attempts -/

/-- `c.leaks` at a port found leaked `s` times since it was last used. -/
def leakCount (s : ℕ) : Option ℤ :=
  if s = 0 then none else some (max (numRepairsBeforeLeakCleanup - 1 - s) 0)

theorem nextLeak_leakCount (s : ℕ) : nextLeak (leakCount s) = leakCount (s + 1) := by
  rcases s with _ | s
  · rfl
  · simp only [leakCount, nextLeak, numRepairsBeforeLeakCleanup, Nat.add_one_ne_zero, if_false]
    split_ifs with h
    · congr 1
      omega
    · congr 1
      omega

/-- A port is kept at its `s + 1`-th sighting while `s + 1 < numRepairsBeforeLeakCleanup`. -/
theorem keepsLeak_leakCount (s : ℕ) :
    keepsLeak (leakCount s) = decide ((s : ℤ) + 1 < numRepairsBeforeLeakCleanup) := by
  rcases s with _ | s
  · rfl
  · simp only [leakCount, keepsLeak, numRepairsBeforeLeakCleanup, Nat.add_one_ne_zero, if_false]
    apply decide_eq_decide.mpr
    omega

/-- The times a port is found leaked since it was last used, over the attempts `reads`, from `s`. -/
def sightings (wordSize : ℕ) (portRange : PortRange) (q : ℤ) (s : ℕ) : List RepairRead → ℕ
  | [] => s
  | read :: reads => sightings wordSize portRange q
    ((if usedPort portRange read.services q then 0 else s) +
      if leakedPort wordSize portRange read q then 1 else 0) reads

theorem nextLeaks_leakCount (wordSize : ℕ) (portRange : PortRange) (read : RepairRead) (s : ℤ → ℕ)
    (q : ℤ) :
    nextLeaks wordSize portRange read (fun q => leakCount (s q)) q =
      leakCount ((if usedPort portRange read.services q then 0 else s q) +
        if leakedPort wordSize portRange read q then 1 else 0) := by
  unfold nextLeaks
  dsimp only
  by_cases hu : usedPort portRange read.services q <;> by_cases hl : leakedPort wordSize portRange read q <;>
    simp only [hu, hl, ↓reduceIte, Bool.false_eq_true]
  · rw [show (none : Option ℤ) = leakCount 0 from rfl, nextLeak_leakCount]
  · rfl
  · rw [nextLeak_leakCount]
  · rfl

/-- The repair after a run of attempts, whatever each of them returned. -/
def runAttempts (wordSize : ℕ) (c : Repair) (reads : List RepairRead) : Repair :=
  reads.foldl (fun c read => (runOnce wordSize c read).2) c

/-- **The counts over a run of attempts**: the count at each port is `leakCount` of its
sightings. -/
theorem runAttempts_leaks {wordSize : ℕ} (hw : 0 < wordSize) (reads : List RepairRead) (c : Repair)
    (s : ℤ → ℕ) (hc : c.leaks = fun q => leakCount (s q)) :
    (runAttempts wordSize c reads).portRange = c.portRange ∧
      ∀ q, (runAttempts wordSize c reads).leaks q = leakCount (sightings wordSize c.portRange q (s q) reads) := by
  induction reads generalizing c s with
  | nil => exact ⟨rfl, fun q => show c.leaks q = _ by rw [hc]; rfl⟩
  | cons read reads ih =>
    obtain ⟨-, -, -, -, hsnd⟩ := runOnce_spec hw c read
    have hstep : runAttempts wordSize c (read :: reads) =
        runAttempts wordSize (runOnce wordSize c read).2 reads := rfl
    obtain ⟨hpr, hleaks⟩ := ih (runOnce wordSize c read).2
      (fun q => (if usedPort c.portRange read.services q then 0 else s q) +
        if leakedPort wordSize c.portRange read q then 1 else 0)
      (by rw [hsnd, hc]; funext q; exact nextLeaks_leakCount _ _ _ _ _)
    exact ⟨by rw [hstep, hpr, hsnd], fun q => by rw [hstep, hleaks q, hsnd]; rfl⟩

/-- **A port no service uses is written back exactly while it has been found leaked fewer than
`numRepairsBeforeLeakCleanup - 1` times since it was last used**, by the attempts before, from a
new repair. Every port a service uses in the range is written back. -/
theorem runOnce_written_has_iff {wordSize : ℕ} (hw : 0 < wordSize) (portRange : PortRange)
    (reads : List RepairRead) (read : RepairRead) (hpersist : read.persist = .ok) :
    ∃ written, (runOnce wordSize (runAttempts wordSize ⟨portRange, fun _ => none⟩ reads) read).1 = .ok written ∧
      ∀ q, written.has q = (usedPort portRange read.services q ||
        leakedPort wordSize portRange read q && portRange.contains q &&
          decide ((sightings wordSize portRange q 0 reads : ℤ) + 1 < numRepairsBeforeLeakCleanup)) := by
  obtain ⟨hpr, hleaks⟩ := runAttempts_leaks hw reads ⟨portRange, fun _ => none⟩ (fun _ => 0) rfl
  obtain ⟨written, -, hhas, hfst, -⟩ := runOnce_spec hw (runAttempts wordSize ⟨portRange, fun _ => none⟩ reads) read
  rw [hpersist] at hfst
  refine ⟨written, hfst, fun q => ?_⟩
  rw [hhas, hleaks, keepsLeak_leakCount, hpr]
  cases leakedPort wordSize portRange read q <;> cases portRange.contains q <;> simp

/-! ## Executions -/

/-- **`RunOnce` is a run of attempts**: the first `n` conflict, and it returns what attempt `n`
returns, `n` below `DefaultBackoff.Steps`. -/
theorem retryOnConflict_eq {wordSize : ℕ} (hw : 0 < wordSize) (reads : ℕ → RepairRead) (steps : ℕ)
    (hsteps : 0 < steps) (attempt : ℕ) (c : Repair) :
    ∃ n < steps, (∀ i < n, (reads (attempt + i)).persist = .conflict) ∧
      retryOnConflict wordSize reads steps attempt c =
        runOnce wordSize (runAttempts wordSize c ((List.range n).map fun i => reads (attempt + i)))
          (reads (attempt + n)) := by
  induction steps generalizing attempt c with
  | zero => exact absurd hsteps (by omega)
  | succ k ih =>
    obtain ⟨written, -, -, hfst, -⟩ := runOnce_spec hw c (reads attempt)
    rw [retryOnConflict]
    rcases hr : runOnce wordSize c (reads attempt) with ⟨res, c'⟩
    rw [hr] at hfst
    dsimp only at hfst
    have hnow : runOnce wordSize (runAttempts wordSize c ((List.range 0).map fun i => reads (attempt + i)))
        (reads (attempt + 0)) = (res, c') := hr
    cases hp : (reads attempt).persist <;> rw [hp] at hfst <;> subst hfst
    · exact ⟨0, by omega, by simp, hnow.symm⟩
    · -- a conflict: the next attempt, if there is one
      rcases k with _ | k
      · exact ⟨0, by omega, by simp, by rw [hnow]; rfl⟩
      · obtain ⟨n, hn, hconf, heq⟩ := ih (by omega) (attempt + 1) c'
        refine ⟨n + 1, by omega, fun i hi => ?_, ?_⟩
        · rcases i with _ | i
          · simpa using hp
          · simpa [Nat.add_assoc, Nat.add_comm 1] using hconf i (by omega)
        · dsimp only
          rw [heq, List.range_succ_eq_map, List.map_cons, List.map_map]
          have hc' : runAttempts wordSize c (reads (attempt + 0) :: ((List.range n).map
              ((fun i => reads (attempt + i)) ∘ Nat.succ))) =
              runAttempts wordSize c' ((List.range n).map fun i => reads (attempt + 1 + i)) := by
            simp only [runAttempts, List.foldl_cons, Nat.add_zero, hr]
            congr 2
            funext i
            simp [Function.comp, Nat.add_assoc, Nat.add_comm 1]
          rw [hc', show attempt + (n + 1) = attempt + 1 + n by omega]
    · exact ⟨0, by omega, by simp, hnow.symm⟩

theorem RunOnce_eq {wordSize : ℕ} (hw : 0 < wordSize) (c : Repair) (reads : ℕ → RepairRead) :
    ∃ n < defaultBackoffSteps, (∀ i < n, (reads i).persist = .conflict) ∧
      RunOnce wordSize c reads = runOnce wordSize (runAttempts wordSize c ((List.range n).map reads)) (reads n) := by
  simpa [RunOnce] using retryOnConflict_eq hw reads defaultBackoffSteps (by decide) 0 c

/-- An execution whose first write succeeds is that one attempt. -/
theorem RunOnce_of_persist_ok {wordSize : ℕ} (hw : 0 < wordSize) (c : Repair) {reads : ℕ → RepairRead}
    (h : (reads 0).persist = .ok) : RunOnce wordSize c reads = runOnce wordSize c (reads 0) := by
  obtain ⟨n, -, hconf, heq⟩ := RunOnce_eq hw c reads
  rcases n with _ | n
  · simpa [runAttempts] using heq
  · simp [hconf 0 (by omega)] at h

/-! ## A leaked port dropped after two executions that find it -/

/-- The default node port range, 30000-32767. -/
def nodePortRange : PortRange := ⟨30000, 2768⟩

/-- A stored snapshot holding port 30080, no service, and a write that succeeds. -/
def leakedPortRead : RepairRead := ⟨((PortAllocator.new nodePortRange).allocate 30080).2, [], .ok⟩

/-- An empty stored snapshot, no service, and a write that succeeds. -/
def emptyRead : RepairRead := ⟨PortAllocator.new nodePortRange, [], .ok⟩

/-- **A port is dropped two executions after it last left the snapshot.** The first execution finds
port 30080 leaked. The second reads a snapshot without it, which leaves its count. The third and
the fourth find it leaked again, and the fourth writes a snapshot without it. -/
theorem RunOnce_drops_port_seen_leaked_twice :
    let c₁ : Repair := (RunOnce 8 ⟨nodePortRange, fun _ => none⟩ fun _ => leakedPortRead).2
    let c₂ := (RunOnce 8 c₁ fun _ => emptyRead).2
    let c₃ := (RunOnce 8 c₂ fun _ => leakedPortRead).2
    leakedPortRead.stored.has 30080 = true ∧ emptyRead.stored.has 30080 = false ∧
      ∃ written, (RunOnce 8 c₃ fun _ => leakedPortRead).1 = .ok written ∧ written.has 30080 = false := by
  intro c₁ c₂ c₃
  have hleakedRun : ∀ c, RunOnce 8 c (fun _ => leakedPortRead) = runOnce 8 c leakedPortRead :=
    fun c => RunOnce_of_persist_ok (by norm_num) c rfl
  have hemptyRun : ∀ c, RunOnce 8 c (fun _ => emptyRead) = runOnce 8 c emptyRead :=
    fun c => RunOnce_of_persist_ok (by norm_num) c rfl
  have h₃ : c₃ = runAttempts 8 ⟨nodePortRange, fun _ => none⟩ [leakedPortRead, emptyRead, leakedPortRead] := by
    simp only [c₃, c₂, c₁, hleakedRun, hemptyRun, runAttempts, List.foldl_cons, List.foldl_nil]
  obtain ⟨written, hwritten, hhas⟩ :=
    runOnce_written_has_iff (show 0 < 8 by norm_num) nodePortRange [leakedPortRead, emptyRead, leakedPortRead] leakedPortRead rfl
  have hheld : leakedPortRead.stored.has 30080 = true := by decide
  have hleaked : (30080 : ℤ) ∈ leakedPortRead.stored.forEach 8 :=
    PortAllocator.mem_forEach_of_has _ (show 0 < 8 by norm_num) hheld
  have hempty : (30080 : ℤ) ∉ emptyRead.stored.forEach 8 := by
    rw [PortAllocator.mem_forEach _ (show 0 < 8 by norm_num)]
    simp [emptyRead, PortAllocator.new, AllocationBitmap.new]
  have hleakedServices : leakedPortRead.services = [] := rfl
  have hemptyServices : emptyRead.services = [] := rfl
  have hrange : nodePortRange.contains 30080 = true := by decide
  refine ⟨hheld, by decide, written, by rw [hleakedRun, h₃]; exact hwritten, ?_⟩
  rw [hhas]
  simp [sightings, leakedPort, usedPort, hleaked, hempty, hleakedServices, hemptyServices, hrange,
    numRepairsBeforeLeakCleanup]

end Kubernetes.Registry
