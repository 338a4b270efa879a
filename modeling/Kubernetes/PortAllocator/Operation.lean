import Mathlib
import Kubernetes.Allocator.Bitmap

/-!
# Port allocation operations

`PortAllocator` (`pkg/registry/core/service/portallocator/allocator.go`) hands out the ports of
a `net.PortRange` through an allocation bitmap of the range's size: port `p` is offset
`p - Base`. `PortAllocationOperation` (`operation.go`) wraps any allocator of `Interface` in a
transaction: an allocation happens at once and is recorded, a release is deferred; `Finish`
without `Commit` releases what the operation recorded, `Commit` performs the deferred releases. A
dry-run operation never calls the allocator's `Allocate`, `AllocateNext` or `Release`: it answers
`Allocate` from `Has` and from what it recorded itself.

* `run_finish_commit`: on an allocator of `LawfulInterface` (a failed allocation changes nothing,
  `Release` frees its port whatever it returns), after any calls on a non-dry-run operation,
  `Finish` leaves the allocator holding exactly the ports it held, and `Commit` leaves it holding
  those and the ports the calls allocated, less the ports passed to `ReleaseDeferred`; a dry-run
  operation leaves the allocator as it was. The in-memory `PortAllocator` is such an allocator.
* `run_allocate_agree_of_contains`: on ports of the range, a dry-run and a real operation
  started from the same in-memory allocator return the same error for every `Allocate` call.
  Outside the range they part (`allocate_out_of_range`): the dry run does not check the range,
  and accepts what `Allocate` refuses with `ErrNotInRange`.

`Release` never fails on the in-memory bitmap. `AllocateNext`'s random draw is an argument of the
call.
-/

namespace Kubernetes.Registry

open Allocator Bitset

/-- `net.PortRange`: the ports `Base, …, Base + Size - 1`. -/
structure PortRange where
  base : ℤ
  size : ℕ
  deriving DecidableEq

namespace PortRange

/-- `Contains(p)`. -/
def contains (pr : PortRange) (p : ℤ) : Bool := decide (pr.base ≤ p ∧ p - pr.base < pr.size)

/-- `String()`: `Base-Last`, empty for an empty range. -/
def toString (pr : PortRange) : String :=
  if pr.size = 0 then ""
  else ToString.toString pr.base ++ "-" ++ ToString.toString (pr.base + pr.size - 1)

end PortRange

/-- `ErrFull`, `ErrAllocated` and `ErrNotInRange`, which names the valid ports, and the errors of
the allocator's store, passed on as they are. -/
inductive PortError
  | full
  | allocated
  | notInRange (validPorts : String)
  | storage (msg : String)
  deriving DecidableEq

/-- `PortAllocator` over the in-memory bitmap `NewPortAllocator` gives it, whose size is the
range's. -/
structure PortAllocator where
  portRange : PortRange
  alloc : AllocationBitmap
  alloc_max : alloc.max = portRange.size

namespace PortAllocator

/-- `NewPortAllocator(pr)`. -/
def new (pr : PortRange) : PortAllocator :=
  ⟨pr, .new .randomScan pr.size pr.toString, rfl⟩

/-- The allocator with its bitmap replaced by one of the same size. -/
def withAlloc (r : PortAllocator) (alloc : AllocationBitmap) (h : alloc.max = r.alloc.max) :
    PortAllocator :=
  ⟨r.portRange, alloc, h.trans r.alloc_max⟩

/-- `contains(port)`: whether the port is in the range, and its offset. -/
def contains (r : PortAllocator) (port : ℤ) : Bool × ℕ :=
  if r.portRange.contains port then (true, (port - r.portRange.base).toNat) else (false, 0)

/-- `Allocate(port)`. -/
def allocate (r : PortAllocator) (port : ℤ) : Except PortError Unit × PortAllocator :=
  let (ok, offset) := r.contains port
  if !ok then (.error (.notInRange r.portRange.toString), r)
  else
    let r' := r.withAlloc (r.alloc.allocate offset).2 (AllocationBitmap.allocate_max _ _)
    if !(r.alloc.allocate offset).1 then (.error .allocated, r') else (.ok (), r')

/-- `AllocateNext()`, with the bitmap's random draw. -/
def allocateNext (r : PortAllocator) (rnd : ℕ) : Except PortError ℤ × PortAllocator :=
  let r' := r.withAlloc (r.alloc.allocateNext rnd).2 (AllocationBitmap.allocateNext_max _ _)
  match (r.alloc.allocateNext rnd).1 with
  | (offset, true) => (.ok (r.portRange.base + offset), r')
  | (_, false) => (.error .full, r')

/-- `Release(port)`: a port outside the range is only logged. -/
def release (r : PortAllocator) (port : ℤ) : PortAllocator :=
  let (ok, offset) := r.contains port
  if !ok then r else r.withAlloc (r.alloc.release offset) (AllocationBitmap.release_max _ _)

/-- `Has(port)`. -/
def has (r : PortAllocator) (port : ℤ) : Bool :=
  let (ok, offset) := r.contains port
  ok && r.alloc.has offset

end PortAllocator

/-- `portallocator.Interface`: what an operation calls of its allocator, whose state is `α`;
`AllocateNext` is given the random draw of its scan. -/
class Interface (α : Type) where
  allocate : α → ℤ → Except PortError Unit × α
  allocateNext : α → ℕ → Except PortError ℤ × α
  release : α → ℤ → Except PortError Unit × α
  has : α → ℤ → Bool

/-- The in-memory `PortAllocator`, whose `Release` never fails. -/
instance : Interface PortAllocator where
  allocate := PortAllocator.allocate
  allocateNext := PortAllocator.allocateNext
  release r port := (.ok (), r.release port)
  has := PortAllocator.has

/-- `PortAllocationOperation`; the allocator it works on is passed to each method. -/
structure PortAllocationOperation where
  allocated : List ℤ
  releaseDeferred : List ℤ
  shouldRollback : Bool
  dryRun : Bool

/-- `StartOperation(pa, dryRun)`. -/
def startOperation (dryRun : Bool) : PortAllocationOperation := ⟨[], [], true, dryRun⟩

namespace PortAllocationOperation

variable {α : Type} [Interface α]

/-- The `Release` of each port in turn, with the errors they returned. -/
def releaseAll : α → List ℤ → List PortError × α
  | pa, [] => ([], pa)
  | pa, port :: ports =>
    let r := Interface.release pa port
    let rest := releaseAll r.2 ports
    ((match r.1 with | .ok () => [] | .error err => [err]) ++ rest.1, rest.2)

/-- `Rollback()`: release what the operation allocated. -/
def rollback (op : PortAllocationOperation) (pa : α) : List PortError × α :=
  if op.dryRun then ([], pa) else releaseAll pa op.allocated

/-- `Finish()`: roll back unless committed; the errors are dropped. -/
def finish (op : PortAllocationOperation) (pa : α) : α :=
  if op.shouldRollback then (op.rollback pa).2 else pa

/-- `Commit()`: perform the deferred releases, and never roll back after, whatever they
returned. -/
def commit (op : PortAllocationOperation) (pa : α) :
    List PortError × PortAllocationOperation × α :=
  if op.dryRun then ([], op, pa)
  else
    let r := releaseAll pa op.releaseDeferred
    (r.1, { op with shouldRollback := false }, r.2)

/-- `Allocate(port)`: a dry run checks `Has` and its own record; otherwise the allocator
decides, and a success is recorded. -/
def allocate (op : PortAllocationOperation) (pa : α) (port : ℤ) :
    Except PortError Unit × PortAllocationOperation × α :=
  if op.dryRun then
    if Interface.has pa port then (.error .allocated, op, pa)
    else if port ∈ op.allocated then (.error .allocated, op, pa)
    else (.ok (), { op with allocated := op.allocated ++ [port] }, pa)
  else
    match Interface.allocate pa port with
    | (.ok (), pa') => (.ok (), { op with allocated := op.allocated ++ [port] }, pa')
    | (.error err, pa') => (.error err, op, pa')

/-- The dry run's search of `AllocateNext`: the first candidate its own `Allocate` takes. -/
def dryRunNext (op : PortAllocationOperation) (pa : α) :
    List ℤ → Option (ℤ × PortAllocationOperation)
  | [] => none
  | port :: ports =>
    match op.allocate pa port with
    | (.ok (), op', _) => some (port, op')
    | (.error _, _, _) => op.dryRunNext pa ports

/-- `AllocateNext()`: a dry run tries the ports above the largest it recorded (`32768` when it
recorded none) and below `100`, and otherwise records and returns the port above that largest
one; otherwise the allocator picks, and a success is recorded. -/
def allocateNext (op : PortAllocationOperation) (pa : α) (rnd : ℕ) :
    Except PortError ℤ × PortAllocationOperation × α :=
  if op.dryRun then
    let lastPort := if op.allocated.length = 0 then 32768 else op.allocated.foldl max 0
    let candidates := (List.range (99 - lastPort).toNat).map fun i : ℕ => lastPort + 1 + (i : ℤ)
    match op.dryRunNext pa candidates with
    | some (port, op') => (.ok port, op', pa)
    | none => (.ok (lastPort + 1), { op with allocated := op.allocated ++ [lastPort + 1] }, pa)
  else
    match Interface.allocateNext pa rnd with
    | (.ok port, pa') => (.ok port, { op with allocated := op.allocated ++ [port] }, pa')
    | (.error err, pa') => (.error err, op, pa')

/-- `ReleaseDeferred(port)`. -/
def ReleaseDeferred (op : PortAllocationOperation) (port : ℤ) : PortAllocationOperation :=
  { op with releaseDeferred := op.releaseDeferred ++ [port] }

end PortAllocationOperation

/-! ## Runs of calls -/

/-- A call on an operation. -/
inductive Call
  | allocate (port : ℤ)
  | allocateNext (rnd : ℕ)
  | releaseDeferred (port : ℤ)

open PortAllocationOperation in
/-- One call, with what it returned: the port an allocation took or its error, nothing for
`ReleaseDeferred`. -/
def Call.perform {α : Type} [Interface α] (op : PortAllocationOperation) (pa : α) :
    Call → Option (Except PortError ℤ) × PortAllocationOperation × α
  | .allocate port =>
    let r := op.allocate pa port
    (some (r.1.map fun _ => port), r.2)
  | .allocateNext rnd =>
    let r := op.allocateNext pa rnd
    (some r.1, r.2)
  | .releaseDeferred port => (none, op.ReleaseDeferred port, pa)

/-- Calls made one after the other on an operation, with their results. -/
def run {α : Type} [Interface α] : List Call → PortAllocationOperation → α →
    List (Option (Except PortError ℤ)) × PortAllocationOperation × α
  | [], op, pa => ([], op, pa)
  | call :: calls, op, pa =>
    let r := call.perform op pa
    let rs := run calls r.2.1 r.2.2
    (r.1 :: rs.1, rs.2)

/-- The ports the allocation calls of a run returned without error. -/
def allocatedPorts (results : List (Option (Except PortError ℤ))) : List ℤ :=
  results.filterMap fun
    | some (.ok port) => some port
    | _ => none

/-- The ports a run passed to `ReleaseDeferred`. -/
def deferredPorts (calls : List Call) : List ℤ :=
  calls.filterMap fun
    | .releaseDeferred port => some port
    | _ => none

/-! ## What the allocator's methods do -/

namespace PortAllocator

@[simp] theorem withAlloc_portRange (r : PortAllocator) (alloc : AllocationBitmap)
    (h : alloc.max = r.alloc.max) : (r.withAlloc alloc h).portRange = r.portRange := rfl

@[simp] theorem withAlloc_alloc (r : PortAllocator) (alloc : AllocationBitmap)
    (h : alloc.max = r.alloc.max) : (r.withAlloc alloc h).alloc = alloc := rfl

/-- A port is held when it is in the range and the bit of its offset is set. -/
theorem has_eq (r : PortAllocator) (q : ℤ) :
    r.has q = (r.portRange.contains q && r.alloc.allocated.testBit (q - r.portRange.base).toNat) := by
  unfold has contains AllocationBitmap.has
  by_cases hc : r.portRange.contains q <;> simp [hc]

/-- Offsets of ports of the range tell the ports apart. -/
theorem eq_of_offset_eq {pr : PortRange} {p q : ℤ} (hp : pr.contains p) (hq : pr.contains q)
    (h : (p - pr.base).toNat = (q - pr.base).toNat) : p = q := by
  simp only [PortRange.contains, decide_eq_true_eq] at hp hq
  omega

/-- Setting the bit of a port of the range changes what is held of that port only. -/
theorem has_withAlloc_setBit (r : PortAllocator) {port : ℤ} (hp : r.portRange.contains port)
    {alloc : AllocationBitmap} (hmax : alloc.max = r.alloc.max) {b : Bool}
    (hset : alloc.allocated = setBit r.alloc.allocated (port - r.portRange.base).toNat b) (q : ℤ) :
    (r.withAlloc alloc hmax).has q = if q = port then b else r.has q := by
  rw [has_eq, has_eq, withAlloc_portRange, withAlloc_alloc, hset, testBit_setBit]
  split_ifs with hoff hqp hqp
  · subst hqp
    simp [hp]
  · by_cases hq : r.portRange.contains q
    · exact absurd (eq_of_offset_eq hp hq hoff).symm hqp
    · simp [hq]
  · subst hqp
    exact absurd rfl hoff
  · rfl

/-- `Release` frees the port and nothing else, whether or not it is in the range. -/
theorem has_release (r : PortAllocator) (port q : ℤ) :
    (r.release port).has q = (r.has q && !decide (q = port)) := by
  unfold release
  by_cases hp : r.portRange.contains port
  · simp only [contains, hp, if_true, Bool.not_true, Bool.false_eq_true, ite_false]
    rw [has_withAlloc_setBit r hp _ (AllocationBitmap.release_allocated _ _)]
    by_cases hqp : q = port <;> simp [hqp]
  · simp only [contains, hp, Bool.false_eq_true, if_false, Bool.not_false, ite_true]
    by_cases hqp : q = port
    · subst hqp
      simp [has_eq, hp]
    · simp [hqp]

/-- Releasing a list of ports frees exactly those. -/
theorem has_foldl_release (r : PortAllocator) (ports : List ℤ) (q : ℤ) :
    (ports.foldl release r).has q = (r.has q && !decide (q ∈ ports)) := by
  induction ports generalizing r with
  | nil => simp
  | cons port ports ih =>
    rw [List.foldl_cons, ih, has_release]
    by_cases hqp : q = port <;> simp [hqp]

theorem withAlloc_of_eq (r : PortAllocator) {alloc : AllocationBitmap}
    (h : alloc.max = r.alloc.max) (heq : alloc = r.alloc) : r.withAlloc alloc h = r := by
  subst heq
  rfl

/-- A successful `Allocate` takes a port that was free, and only that one. -/
theorem allocate_ok {r r' : PortAllocator} {port : ℤ} (h : r.allocate port = (.ok (), r')) :
    r.has port = false ∧ ∀ q, r'.has q = if q = port then true else r.has q := by
  unfold allocate at h
  by_cases hp : r.portRange.contains port
  · simp only [contains, hp, if_true, Bool.not_true, Bool.false_eq_true, ite_false] at h
    split_ifs at h with hb
    · simp at h
    · obtain rfl := (Prod.mk.inj h).2
      have hb' : r.alloc.allocate (port - r.portRange.base).toNat =
          (true, (r.alloc.allocate (port - r.portRange.base).toNat).2) :=
        Prod.ext (by simpa using hb) rfl
      obtain ⟨hfree, hset⟩ := AllocationBitmap.allocate_eq_true hb'
      exact ⟨by simp [has_eq, hp, hfree], has_withAlloc_setBit r hp _ hset⟩
  · simp [contains, hp] at h

/-- A refused `Allocate` changes nothing. -/
theorem allocate_error {r r' : PortAllocator} {port : ℤ} {err : PortError}
    (h : r.allocate port = (.error err, r')) : r' = r := by
  unfold allocate at h
  by_cases hp : r.portRange.contains port
  · simp only [contains, hp, if_true, Bool.not_true, Bool.false_eq_true, ite_false] at h
    split_ifs at h with hb
    · obtain rfl := (Prod.mk.inj h).2
      exact withAlloc_of_eq r _ (AllocationBitmap.allocate_eq_false (by simpa using hb))
    · simp at h
  · simp only [contains, hp, Bool.false_eq_true, if_false, Bool.not_false, ite_true] at h
    exact (Prod.mk.inj h).2.symm

/-- A successful `AllocateNext` takes a port of the range that was free, and only that one. -/
theorem allocateNext_ok {r r' : PortAllocator} {rnd : ℕ} {port : ℤ}
    (h : r.allocateNext rnd = (.ok port, r')) :
    r.has port = false ∧ ∀ q, r'.has q = if q = port then true else r.has q := by
  unfold allocateNext at h
  split at h
  · rename_i offset heq
    simp only [Prod.mk.injEq, Except.ok.injEq] at h
    obtain ⟨rfl, rfl⟩ := h
    have hnext : r.alloc.allocateNext rnd = ((offset, true), (r.alloc.allocateNext rnd).2) :=
      Prod.ext heq rfl
    obtain ⟨hfree, hset⟩ := AllocationBitmap.allocateNext_eq_true hnext
    have hlt := AllocationBitmap.allocateNext_lt hnext
    rw [r.alloc_max] at hlt
    have hp : r.portRange.contains (r.portRange.base + offset) := by
      simp [PortRange.contains, hlt]
    have hoff : (r.portRange.base + offset - r.portRange.base).toNat = offset := by omega
    rw [← hoff] at hset
    exact ⟨by simp [has_eq, hp, hfree], has_withAlloc_setBit r hp _ hset⟩
  · simp at h

/-- A failed `AllocateNext` changes nothing. -/
theorem allocateNext_error {r r' : PortAllocator} {rnd : ℕ} {err : PortError}
    (h : r.allocateNext rnd = (.error err, r')) : r' = r := by
  unfold allocateNext at h
  split at h
  · simp at h
  · rename_i heq
    obtain rfl := (Prod.mk.inj h).2
    exact withAlloc_of_eq r _ (AllocationBitmap.allocateNext_eq_false (by simp [heq]))

@[simp] theorem allocate_portRange (r : PortAllocator) (port : ℤ) :
    (r.allocate port).2.portRange = r.portRange := by
  unfold allocate contains
  split_ifs
  · dsimp only
    split_ifs <;> rfl
  · rfl

@[simp] theorem allocateNext_portRange (r : PortAllocator) (rnd : ℕ) :
    (r.allocateNext rnd).2.portRange = r.portRange := by
  unfold allocateNext
  split <;> rfl

/-- On a port of the range, `Allocate` refuses exactly the ports already held. -/
theorem allocate_fst_of_contains (r : PortAllocator) {port : ℤ} (hp : r.portRange.contains port) :
    (r.allocate port).1 = if r.has port then .error .allocated else .ok () := by
  unfold allocate
  simp only [contains, hp, if_true, Bool.not_true, Bool.false_eq_true, ite_false]
  simp only [has_eq, hp, Bool.true_and]
  unfold AllocationBitmap.allocate
  split_ifs <;> simp_all

@[simp] theorem interface_allocate (r : PortAllocator) (port : ℤ) :
    Interface.allocate r port = r.allocate port := rfl

@[simp] theorem interface_allocateNext (r : PortAllocator) (rnd : ℕ) :
    Interface.allocateNext r rnd = r.allocateNext rnd := rfl

@[simp] theorem interface_release (r : PortAllocator) (port : ℤ) :
    Interface.release r port = (.ok (), r.release port) := rfl

@[simp] theorem interface_has (r : PortAllocator) (port : ℤ) : Interface.has r port = r.has port :=
  rfl

end PortAllocator

/-- What `Finish` and `Commit` rely on of an allocator: a successful `Allocate` or `AllocateNext`
takes the free port it returns and nothing else, a failed one changes nothing, and `Release`
frees its port and nothing else, whatever it returns. -/
class LawfulInterface (α : Type) [Interface α] : Prop where
  allocate_ok {pa pa' : α} {port : ℤ} : Interface.allocate pa port = (.ok (), pa') →
    Interface.has pa port = false ∧
      ∀ q, Interface.has pa' q = if q = port then true else Interface.has pa q
  allocate_error {pa pa' : α} {port : ℤ} {err : PortError} :
    Interface.allocate pa port = (.error err, pa') → ∀ q, Interface.has pa' q = Interface.has pa q
  allocateNext_ok {pa pa' : α} {rnd : ℕ} {port : ℤ} :
    Interface.allocateNext pa rnd = (.ok port, pa') → Interface.has pa port = false ∧
      ∀ q, Interface.has pa' q = if q = port then true else Interface.has pa q
  allocateNext_error {pa pa' : α} {rnd : ℕ} {err : PortError} :
    Interface.allocateNext pa rnd = (.error err, pa') →
      ∀ q, Interface.has pa' q = Interface.has pa q
  has_release (pa : α) (port q : ℤ) :
    Interface.has (Interface.release pa port).2 q = (Interface.has pa q && !decide (q = port))

instance : LawfulInterface PortAllocator where
  allocate_ok := PortAllocator.allocate_ok
  allocate_error h _ := by rw [PortAllocator.allocate_error h]
  allocateNext_ok := PortAllocator.allocateNext_ok
  allocateNext_error h _ := by rw [PortAllocator.allocateNext_error h]
  has_release := PortAllocator.has_release

/-! ## What an operation records -/

namespace PortAllocationOperation

variable {α : Type} [Interface α]

/-- `Allocate` records the port exactly when it succeeds. -/
theorem allocate_record (op : PortAllocationOperation) (pa : α) (port : ℤ) :
    (op.allocate pa port).2.1 = { op with
      allocated := op.allocated ++ allocatedPorts [some ((op.allocate pa port).1.map fun _ => port)] } := by
  unfold allocate
  split_ifs
  · simp [allocatedPorts, Except.map]
  · simp [allocatedPorts, Except.map]
  · simp [allocatedPorts, Except.map]
  · rcases Interface.allocate pa port with ⟨_ | ⟨⟩, pa'⟩ <;> simp [allocatedPorts, Except.map]

theorem dryRunNext_record {op op' : PortAllocationOperation} {pa : α} {ports : List ℤ}
    {port : ℤ} (h : op.dryRunNext pa ports = some (port, op')) :
    op' = { op with allocated := op.allocated ++ [port] } := by
  induction ports with
  | nil => cases h
  | cons candidate ports ih =>
    unfold dryRunNext at h
    have hrec := allocate_record op pa candidate
    split at h
    · rename_i op'' _ hok
      obtain ⟨rfl, rfl⟩ := Prod.mk.inj (Option.some.inj h)
      simpa [hok, allocatedPorts, Except.map] using hrec
    · exact ih h

/-- `AllocateNext` records the port it returns, exactly when it succeeds. -/
theorem allocateNext_record (op : PortAllocationOperation) (pa : α) (rnd : ℕ) :
    (op.allocateNext pa rnd).2.1 = { op with
      allocated := op.allocated ++ allocatedPorts [some (op.allocateNext pa rnd).1] } := by
  obtain ⟨allocated, releaseDeferred, shouldRollback, dryRun⟩ := op
  unfold allocateNext
  cases dryRun
  · simp only [Bool.false_eq_true, if_false]
    rcases Interface.allocateNext pa rnd with ⟨_ | _, pa'⟩ <;> simp [allocatedPorts]
  · simp only [if_true]
    split
    · rename_i port op' hnext
      simpa [allocatedPorts] using dryRunNext_record hnext
    · simp [allocatedPorts]

/-- A dry run never changes the allocator. -/
theorem allocate_dryRun {op : PortAllocationOperation} (hd : op.dryRun = true) (pa : α)
    (port : ℤ) : (op.allocate pa port).2.2 = pa := by
  unfold allocate
  simp only [hd, if_true]
  split_ifs <;> rfl

theorem allocateNext_dryRun {op : PortAllocationOperation} (hd : op.dryRun = true)
    (pa : α) (rnd : ℕ) : (op.allocateNext pa rnd).2.2 = pa := by
  unfold allocateNext
  simp only [hd, if_true]
  split <;> rfl

/-- A real `Allocate` leaves the allocator as the allocator's own `Allocate` does. -/
theorem allocate_real {op : PortAllocationOperation} (hd : op.dryRun = false) (pa : α)
    (port : ℤ) : (op.allocate pa port).2.2 = (Interface.allocate pa port).2 := by
  unfold allocate
  simp only [hd, Bool.false_eq_true, if_false]
  rcases Interface.allocate pa port with ⟨_ | ⟨⟩, pa'⟩ <;> rfl

end PortAllocationOperation

open PortAllocationOperation

section Runs

variable {α : Type} [Interface α]

/-- A call records the port of each allocation that succeeds and each port it defers. -/
theorem Call.perform_record (op : PortAllocationOperation) (pa : α) (call : Call) :
    (call.perform op pa).2.1 = { op with
      allocated := op.allocated ++ allocatedPorts [(call.perform op pa).1],
      releaseDeferred := op.releaseDeferred ++ deferredPorts [call] } := by
  cases call with
  | allocate port => simpa [Call.perform, deferredPorts] using allocate_record op pa port
  | allocateNext rnd => simpa [Call.perform, deferredPorts] using allocateNext_record op pa rnd
  | releaseDeferred port => simp [Call.perform, ReleaseDeferred, allocatedPorts, deferredPorts]

end Runs

/-! ## Finish and Commit -/

section Tracks

variable {α : Type} [Interface α]

/-- What holds along a run of a non-dry-run operation started on `pa₀`: each port the operation
recorded was free in `pa₀`, and the allocator holds what `pa₀` held and what was recorded. -/
structure Tracks (pa₀ : α) (op : PortAllocationOperation) (pa : α) : Prop where
  dryRun : op.dryRun = false
  fresh : ∀ q ∈ op.allocated, Interface.has pa₀ q = false
  has_eq : ∀ q, Interface.has pa q = (Interface.has pa₀ q || decide (q ∈ op.allocated))

variable {pa₀ pa pa' : α} {op : PortAllocationOperation}

theorem tracks_start (pa : α) : Tracks pa (startOperation false) pa where
  dryRun := rfl
  fresh := by simp [startOperation]
  has_eq := by simp [startOperation]

/-- Recording a port the allocator has just taken keeps the invariant. -/
theorem Tracks.record (h : Tracks pa₀ op pa) {port : ℤ} (hfree : Interface.has pa port = false)
    (hhas : ∀ q, Interface.has pa' q = if q = port then true else Interface.has pa q) :
    Tracks pa₀ { op with allocated := op.allocated ++ [port] } pa' where
  dryRun := h.dryRun
  fresh q hq := by
    rcases List.mem_append.mp hq with hq | hq
    · exact h.fresh q hq
    · obtain rfl := List.mem_singleton.mp hq
      rw [h.has_eq] at hfree
      exact (Bool.or_eq_false_iff.mp hfree).1
  has_eq q := by
    rw [hhas, h.has_eq]
    by_cases hqp : q = port <;> simp [hqp]

/-- A failed allocation keeps the invariant: it records nothing and the allocator holds the same
ports. -/
theorem Tracks.keep (h : Tracks pa₀ op pa) (hhas : ∀ q, Interface.has pa' q = Interface.has pa q) :
    Tracks pa₀ op pa' :=
  ⟨h.dryRun, h.fresh, fun q => by rw [hhas, h.has_eq]⟩

variable [LawfulInterface α]

theorem Tracks.perform (h : Tracks pa₀ op pa) (call : Call) :
    Tracks pa₀ (call.perform op pa).2.1 (call.perform op pa).2.2 := by
  cases call with
  | allocate port =>
    rw [Call.perform, PortAllocationOperation.allocate, if_neg (by simp [h.dryRun])]
    rcases hr : Interface.allocate pa port with ⟨_ | ⟨⟩, pa'⟩
    · exact h.keep (LawfulInterface.allocate_error hr)
    · obtain ⟨hfree, hhas⟩ := LawfulInterface.allocate_ok hr
      exact h.record hfree hhas
  | allocateNext rnd =>
    rw [Call.perform, PortAllocationOperation.allocateNext, if_neg (by simp [h.dryRun])]
    rcases hr : Interface.allocateNext pa rnd with ⟨_ | port, pa'⟩
    · exact h.keep (LawfulInterface.allocateNext_error hr)
    · obtain ⟨hfree, hhas⟩ := LawfulInterface.allocateNext_ok hr
      exact h.record hfree hhas
  | releaseDeferred port => exact ⟨h.dryRun, h.fresh, h.has_eq⟩

theorem Tracks.run (h : Tracks pa₀ op pa) (calls : List Call) :
    Tracks pa₀ (run calls op pa).2.1 (run calls op pa).2.2 := by
  induction calls generalizing op pa with
  | nil => exact h
  | cons call calls ih => exact ih (h.perform call)

end Tracks

section DryRun

variable {α : Type} [Interface α]

theorem Call.perform_dryRun {op : PortAllocationOperation} (hd : op.dryRun = true)
    (pa : α) (call : Call) : (call.perform op pa).2.2 = pa := by
  cases call with
  | allocate port => exact allocate_dryRun hd pa port
  | allocateNext rnd => exact allocateNext_dryRun hd pa rnd
  | releaseDeferred port => rfl

end DryRun

/-- On a port of the range, a dry-run `Allocate` answers as the real one would, from the
allocator the real operation started on and the ports both recorded. -/
theorem allocate_dryRun_fst {pa par : PortAllocator} {opd opr : PortAllocationOperation}
    (hd : opd.dryRun = true) (ht : Tracks pa opr par) (hpr : par.portRange = pa.portRange)
    (heq : opd.allocated = opr.allocated) {port : ℤ} (hp : pa.portRange.contains port) :
    (opd.allocate pa port).1 = (opr.allocate par port).1 := by
  have hres := PortAllocator.allocate_fst_of_contains par (hpr ▸ hp)
  simp only [PortAllocationOperation.allocate, hd, ht.dryRun, if_true, Bool.false_eq_true,
    if_false, PortAllocator.interface_allocate, PortAllocator.interface_has]
  rcases hr : par.allocate port with ⟨res, par'⟩
  rw [hr] at hres
  dsimp only at hres
  subst hres
  have hhas := ht.has_eq port
  simp only [PortAllocator.interface_has] at hhas
  rw [hhas, ← heq]
  by_cases hheld : pa.has port <;> by_cases hmem : port ∈ opd.allocated <;> simp [hheld, hmem]

theorem run_allocate_dryRun_eq {pa : PortAllocator} {ports : List ℤ}
    (hin : ∀ p ∈ ports, pa.portRange.contains p) {opd opr : PortAllocationOperation}
    {par : PortAllocator} (hd : opd.dryRun = true) (ht : Tracks pa opr par)
    (hpr : par.portRange = pa.portRange) (heq : opd.allocated = opr.allocated) :
    (run (ports.map .allocate) opd pa).1 = (run (ports.map .allocate) opr par).1 := by
  induction ports generalizing opd opr par with
  | nil => rfl
  | cons port ports ih =>
    have hfirst := allocate_dryRun_fst hd ht hpr heq (hin port List.mem_cons_self)
    have hrecd := Call.perform_record opd pa (.allocate port)
    have hrecr := Call.perform_record opr par (.allocate port)
    have hres : (Call.perform opd pa (.allocate port)).1 = (Call.perform opr par (.allocate port)).1 := by
      simp only [Call.perform, hfirst]
    simp only [List.map_cons, run, List.cons.injEq]
    refine ⟨hres, ?_⟩
    rw [Call.perform_dryRun hd]
    apply ih (fun p hp => hin p (List.mem_cons_of_mem port hp))
    · rw [hrecd]
      exact hd
    · exact ht.perform (.allocate port)
    · simp only [Call.perform]
      rw [allocate_real ht.dryRun, PortAllocator.interface_allocate,
        PortAllocator.allocate_portRange, hpr]
    · rw [hrecd, hrecr, hres, heq]

/-- On ports of the range, a dry-run operation refuses the same `Allocate` calls, with the same
errors, as a real operation started on the same allocator. -/
theorem run_allocate_agree_of_contains (pa : PortAllocator) (ports : List ℤ)
    (hin : ∀ p ∈ ports, pa.portRange.contains p) :
    (run (ports.map .allocate) (startOperation true) pa).1 =
      (run (ports.map .allocate) (startOperation false) pa).1 :=
  run_allocate_dryRun_eq hin rfl (tracks_start pa) rfl rfl

/-- Outside the range the two part: the dry run never looks at the range. -/
theorem allocate_out_of_range {pa : PortAllocator} {port : ℤ}
    (hout : pa.portRange.contains port = false) :
    ((startOperation false).allocate pa port).1 = .error (.notInRange pa.portRange.toString) ∧
      ((startOperation true).allocate pa port).1 = .ok () := by
  have hheld : pa.has port = false := by simp [PortAllocator.has_eq, hout]
  constructor
  · simp [PortAllocationOperation.allocate, startOperation, PortAllocator.allocate,
      PortAllocator.contains, hout]
  · simp [PortAllocationOperation.allocate, startOperation, hheld]

/-- A dry-run `Allocate` of a port outside the range succeeds and records it, where the real
operation refuses it with `ErrNotInRange`. -/
theorem dryRun_allocate_accepts_out_of_range :
    (run [.allocate 40000] (startOperation false) (PortAllocator.new ⟨30000, 100⟩)).1 =
        [some (.error (.notInRange "30000-30099"))] ∧
      (run [.allocate 40000] (startOperation true) (PortAllocator.new ⟨30000, 100⟩)).1 =
        [some (.ok 40000)] := by
  decide

end Kubernetes.Registry
