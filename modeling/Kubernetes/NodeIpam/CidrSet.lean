import Kubernetes.Foundations.Bits
import Kubernetes.Foundations.Scan
import Kubernetes.Foundations.GoStd

/-!
# The node CIDR set

`CidrSet` (`pkg/controller/nodeipam/ipam/cidrset`) cuts a cluster CIDR into the `maxCIDRs`
blocks of the node mask size and hands them out to nodes. Block `i` is the cluster address with
`i` written into the bits between the two masks (`indexToCIDRBlock`); the bitmap `used` records
the blocks in use and `allocatedCIDRs` counts them. `AllocateNext` steps a cursor round the
blocks from `nextCandidate` to the first free one; `Occupy` and `Release` mark every block of a
CIDR as used or free.

* `Inv`: `allocatedCIDRs` is the number of set bits of `used`, and every set bit is a block index
  below `maxCIDRs`. It holds of a new set whose `maxCIDRs` is not negative and every call keeps it
  (`Inv.perform`); `AllocateNext` then fails exactly when every block is used
  (`Inv.allocateNext_error_iff`) and otherwise hands out a block that was free
  (`Inv.allocateNext_ok`).
* `Layout`: the cluster CIDR is as `net.ParseCIDR` returns it, and the node mask size lies
  between its mask size and its address length. Block `i` is then the cluster address plus `i`
  blocks (`Layout.indexToCIDRBlock_addr`), so distinct indices give distinct blocks
  (`Layout.indexToCIDRBlock_injective`), and the blocks handed out by `AllocateNext` are distinct
  until one is released.
* A node mask longer than the addresses breaks the layout: the shift in `indexToCIDRBlock` then
  moves the index out of the address, and every block is the cluster address.
-/

namespace Kubernetes.NodeIpam

open Net Bitset

/-- `clusterSubnetMaxDiff`: how much longer than the cluster mask an IPv6 node mask may be. -/
def clusterSubnetMaxDiff : ℤ := 16

/-- The errors the CIDR set returns. -/
inductive CidrSetError
  /-- `ErrCIDRRangeNoCIDRsRemaining`: "CIDR allocation failed; there are no remaining CIDRs left
  to allocate in the accepted range". -/
  | noCIDRsRemaining
  /-- `ErrCIDRSetSubNetTooBig`: "New CIDR set failed; the node CIDR size is too big". -/
  | subNetTooBig
  /-- "error getting indices for cluster cidr %v, cidr is nil". -/
  | cidrIsNil
  /-- "cidr %v is out the range of cluster cidr %v". -/
  | outOfClusterRange (cidr : IPNet)
  /-- "CIDR: %v/%v is out of the range of CIDR allocator". -/
  | outOfAllocatorRange (ip : Option IP) (nodeMaskSize : ℤ)
  /-- "invalid IP: %v". -/
  | invalidIP
  /-- The Go code reads bytes of the CIDR's mask that the mask does not have (of a `nil` mask, or
  eight bytes of a four-byte one) and panics; the model stops the call here. -/
  | maskTooShort
  deriving DecidableEq

/-- `CidrSet`, without its lock and its metrics `label`. -/
structure CidrSet where
  clusterCIDR : IPNet
  clusterMaskSize : ℕ
  nodeMask : Option IPMask
  nodeMaskSize : ℤ
  maxCIDRs : ℤ
  allocatedCIDRs : ℤ
  nextCandidate : ℕ
  used : ℕ
  deriving DecidableEq

/-- `NewCIDRSet`. -/
def newCIDRSet (clusterCIDR : IPNet) (subNetMaskSize : ℤ) : Except CidrSetError CidrSet :=
  if clusterCIDR.ip.to4 = none ∧
      subNetMaskSize - (IPMask.size clusterCIDR.mask).1 > clusterSubnetMaxDiff then
    .error .subNetTooBig
  else
    .ok { clusterCIDR
          nodeMask := cidrMask subNetMaskSize (IPMask.size clusterCIDR.mask).2
          clusterMaskSize := (IPMask.size clusterCIDR.mask).1
          maxCIDRs := Go.intShl 1
            (Go.toUnsigned 32 (subNetMaskSize - (IPMask.size clusterCIDR.mask).1))
          nodeMaskSize := subNetMaskSize
          allocatedCIDRs := 0
          nextCandidate := 0
          used := 0 }

namespace CidrSet

/-- `indexToCIDRBlock`: the cluster address with the index written just above the node mask's
host bits, under the node mask. An IPv6 address is built as two 64-bit halves. -/
def indexToCIDRBlock (s : CidrSet) (index : ℕ) : IPNet :=
  let ip :=
    if s.clusterCIDR.ip.to4.isSome then
      let j := Go.shl 32 (Go.toUnsigned 32 index) (Go.toUnsigned 32 (32 - s.nodeMaskSize))
      IP.ofNat .v4 (s.clusterCIDR.ip.uint32 ||| j)
    else
      let leftClusterIP := s.clusterCIDR.ip.addr / 2 ^ 64
      let rightClusterIP := s.clusterCIDR.ip.addr % 2 ^ 64
      let idx := Go.toUnsigned 64 index
      if s.nodeMaskSize ≤ 64 then
        let left := leftClusterIP ||| Go.shl 64 idx (Go.toUnsigned 64 (64 - s.nodeMaskSize))
        IP.ofNat .v6 (left * 2 ^ 64 + rightClusterIP)
      else
        -- the index reaches into the left half only when it has more bits than the right
        -- half's share `btl`, and only when the cluster mask leaves room there
        let btl := Go.toUnsigned 64 (s.nodeMaskSize - 64)
        let left :=
          if s.clusterMaskSize < 64 ∧ Go.len64 idx > btl then leftClusterIP ||| idx >>> btl
          else leftClusterIP
        let right :=
          rightClusterIP ||| Go.shl 64 idx (Go.toUnsigned 64 (128 - s.nodeMaskSize))
        IP.ofNat .v6 (left * 2 ^ 64 + right)
  ⟨ip, s.nodeMask⟩

/-- `AllocateNext`: from `nextCandidate`, step round the blocks (at most `maxCIDRs` steps) to the
first free one, and take it. -/
def allocateNext (s : CidrSet) : Except CidrSetError (IPNet × CidrSet) :=
  if s.allocatedCIDRs = s.maxCIDRs then .error .noCIDRsRemaining
  else
    let candidate := Scan.stepScan (fun c => !s.used.testBit c) s.maxCIDRs.toNat
      s.maxCIDRs.toNat s.nextCandidate
    .ok (s.indexToCIDRBlock candidate,
      { s with
        nextCandidate := (Int.tmod (candidate + 1) s.maxCIDRs).toNat
        used := setBit s.used candidate true
        allocatedCIDRs := s.allocatedCIDRs + 1 })

/-- `getIndexForIP`: the block index of an address, the bits of its difference from the cluster
address above the node mask's host bits. -/
def getIndexForIP (s : CidrSet) (ip : Option IP) : Except CidrSetError ℕ :=
  match ip.bind IP.to4, ip with
  | some ip4, _ =>
    let cidrIndex :=
      (s.clusterCIDR.ip.uint32 ^^^ ip4.addr) >>> Go.toUnsigned 32 (32 - s.nodeMaskSize)
    if cidrIndex ≥ Go.toUnsigned 32 s.maxCIDRs then
      .error (.outOfAllocatorRange ip s.nodeMaskSize)
    else .ok cidrIndex
  | none, some a =>
    let bigIP := s.clusterCIDR.ip.addr ^^^ a.addr
    let cidrIndex := (bigIP >>> Go.toUnsigned 64 (128 - s.nodeMaskSize)) % 2 ^ 64
    if cidrIndex ≥ Go.toUnsigned 64 s.maxCIDRs then
      .error (.outOfAllocatorRange ip s.nodeMaskSize)
    else .ok cidrIndex
  | none, none => .error .invalidIP

end CidrSet

/-- The last address of a CIDR, with every bit outside its mask set, as
`getBeginingAndEndIndices` builds it byte-wise. -/
def lastIP (cidr : IPNet) : Except CidrSetError IP :=
  match cidr.mask with
  | none => .error .maskTooShort
  | some m =>
    if cidr.ip.to4.isSome then
      .ok (IP.ofNat .v4 (cidr.ip.uint32 ||| (2 ^ 32 - 1 - m.value / 2 ^ (m.family.bits - 32))))
    else if m.family = .v4 then .error .maskTooShort
    else
      let ipIntLeft := cidr.ip.addr / 2 ^ 64 ||| (2 ^ 64 - 1 - m.value / 2 ^ 64)
      let ipIntRight := cidr.ip.addr % 2 ^ 64 ||| (2 ^ 64 - 1 - m.value % 2 ^ 64)
      .ok (IP.ofNat .v6 (ipIntLeft * 2 ^ 64 + ipIntRight))

/-- The indices `begin, …, end` the loops of `Occupy` and `Release` visit. -/
def indexRange (first last : ℤ) : List ℕ := List.range' first.toNat (last + 1 - first).toNat

/-- One turn of `Occupy`'s loop on `(used, allocatedCIDRs)`: set bit `i`, counting it when it
was clear. -/
def occupyBit (acc : ℕ × ℤ) (i : ℕ) : ℕ × ℤ :=
  if acc.1.testBit i then acc else (setBit acc.1 i true, acc.2 + 1)

/-- One turn of `Release`'s loop on `(used, allocatedCIDRs)`: clear bit `i`, uncounting it when
it was set. -/
def releaseBit (acc : ℕ × ℤ) (i : ℕ) : ℕ × ℤ :=
  if acc.1.testBit i then (setBit acc.1 i false, acc.2 - 1) else acc

namespace CidrSet

/-- `getBeginingAndEndIndices`: the first and last block index a CIDR covers; the whole range
when the CIDR is no longer than the cluster's. -/
def getBeginingAndEndIndices (s : CidrSet) : Option IPNet → Except CidrSetError (ℤ × ℤ)
  | none => .error .cidrIsNil
  | some cidr =>
    if !s.clusterCIDR.contains (cidr.ip.mask s.clusterCIDR.mask) &&
        !cidr.contains (s.clusterCIDR.ip.mask cidr.mask) then
      .error (.outOfClusterRange cidr)
    else if s.clusterMaskSize < (IPMask.size cidr.mask).1 then do
      let first ← s.getIndexForIP (cidr.ip.mask s.nodeMask)
      let ip ← lastIP cidr
      let last ← s.getIndexForIP (ip.mask s.nodeMask)
      pure (first, last)
    else .ok (0, s.maxCIDRs - 1)

/-- The set with the bitmap and the counter a loop left. -/
def withCounts (s : CidrSet) (acc : ℕ × ℤ) : CidrSet :=
  { s with used := acc.1, allocatedCIDRs := acc.2 }

/-- `Occupy`: mark every block of the CIDR as used. -/
def occupy (s : CidrSet) (cidr : Option IPNet) : Except CidrSetError CidrSet :=
  (s.getBeginingAndEndIndices cidr).map fun r =>
    s.withCounts ((indexRange r.1 r.2).foldl occupyBit (s.used, s.allocatedCIDRs))

/-- `Release`: mark every block of the CIDR as free. -/
def release (s : CidrSet) (cidr : Option IPNet) : Except CidrSetError CidrSet :=
  (s.getBeginingAndEndIndices cidr).map fun r =>
    s.withCounts ((indexRange r.1 r.2).foldl releaseBit (s.used, s.allocatedCIDRs))

end CidrSet

/-- A call on the set. -/
inductive Call
  | allocateNext
  | occupy (cidr : Option IPNet)
  | release (cidr : Option IPNet)

namespace CidrSet

/-- The set after a call: a call that returns an error has changed nothing. -/
def perform (s : CidrSet) : Call → CidrSet
  | .allocateNext =>
    match s.allocateNext with
    | .ok r => r.2
    | .error _ => s
  | .occupy cidr =>
    match s.occupy cidr with
    | .ok s' => s'
    | .error _ => s
  | .release cidr =>
    match s.release cidr with
    | .ok s' => s'
    | .error _ => s

/-- The set after a sequence of calls. -/
def performAll (s : CidrSet) (calls : List Call) : CidrSet := calls.foldl perform s

/-- The fields `NewCIDRSet` sets and no call changes. -/
def setup (s : CidrSet) : CidrSet := { s with allocatedCIDRs := 0, nextCandidate := 0, used := 0 }

end CidrSet

/-- The call is a `Release` whose loop visits an index of block `b`. -/
def Call.Covers (s : CidrSet) (c : Call) (b : IPNet) : Prop :=
  ∃ cidr, c = .release cidr ∧ ∃ first last, s.getBeginingAndEndIndices cidr = .ok (first, last) ∧
    ∃ i ∈ indexRange first last, s.indexToCIDRBlock i = b

namespace CidrSet

variable {s s' : CidrSet}

/-! ## What each call does -/

theorem allocateNext_eq_error {e : CidrSetError} :
    s.allocateNext = .error e ↔ s.allocatedCIDRs = s.maxCIDRs ∧ e = .noCIDRsRemaining := by
  unfold allocateNext
  split_ifs with h
  · simp [h, eq_comm]
  · simp [h]

theorem occupy_eq_ok {cidr : Option IPNet} (h : s.occupy cidr = .ok s') :
    ∃ first last, s.getBeginingAndEndIndices cidr = .ok (first, last) ∧
      s' = s.withCounts ((indexRange first last).foldl occupyBit (s.used, s.allocatedCIDRs)) := by
  unfold occupy at h
  cases hr : s.getBeginingAndEndIndices cidr with
  | error e => simp [hr, Except.map] at h
  | ok r =>
    simp only [hr, Except.map, Except.ok.injEq] at h
    exact ⟨r.1, r.2, rfl, h.symm⟩

theorem release_eq_ok {cidr : Option IPNet} (h : s.release cidr = .ok s') :
    ∃ first last, s.getBeginingAndEndIndices cidr = .ok (first, last) ∧
      s' = s.withCounts ((indexRange first last).foldl releaseBit (s.used, s.allocatedCIDRs)) := by
  unfold release at h
  cases hr : s.getBeginingAndEndIndices cidr with
  | error e => simp [hr, Except.map] at h
  | ok r =>
    simp only [hr, Except.map, Except.ok.injEq] at h
    exact ⟨r.1, r.2, rfl, h.symm⟩

/-! ## The fields no call changes -/

@[simp] theorem setup_withCounts (acc : ℕ × ℤ) : (s.withCounts acc).setup = s.setup := rfl

theorem indexToCIDRBlock_setup : s.setup.indexToCIDRBlock = s.indexToCIDRBlock := rfl

theorem getBeginingAndEndIndices_setup :
    s.setup.getBeginingAndEndIndices = s.getBeginingAndEndIndices := rfl

theorem setup_allocateNext {b : IPNet} (h : s.allocateNext = .ok (b, s')) : s'.setup = s.setup := by
  unfold allocateNext at h
  split_ifs at h
  cases h
  rfl

theorem setup_perform (c : Call) : (s.perform c).setup = s.setup := by
  cases c with
  | allocateNext =>
    simp only [perform]
    cases h : s.allocateNext with
    | ok r =>
      obtain ⟨b, s'⟩ := r
      exact setup_allocateNext h
    | error => rfl
  | occupy cidr =>
    simp only [perform]
    cases h : s.occupy cidr with
    | ok s' =>
      obtain ⟨_, _, _, rfl⟩ := occupy_eq_ok h
      rfl
    | error => rfl
  | release cidr =>
    simp only [perform]
    cases h : s.release cidr with
    | ok s' =>
      obtain ⟨_, _, _, rfl⟩ := release_eq_ok h
      rfl
    | error => rfl

theorem setup_performAll (calls : List Call) : (s.performAll calls).setup = s.setup := by
  induction calls generalizing s with
  | nil => rfl
  | cons c calls ih => exact (ih (s := s.perform c)).trans (setup_perform c)

/-- Whether a call covers a block depends only on the fields no call changes. -/
theorem Call.covers_congr {t : CidrSet} (h : s.setup = t.setup) {c : Call} {b : IPNet} :
    c.Covers s b ↔ c.Covers t b := by
  rw [Call.Covers, Call.Covers, ← getBeginingAndEndIndices_setup, h,
    getBeginingAndEndIndices_setup, ← indexToCIDRBlock_setup (s := s), h, indexToCIDRBlock_setup]

/-! ## The counting invariant -/

/-- `allocatedCIDRs` counts the set bits of `used`, every one of them a block index, and the
cursor points at a block. -/
structure Inv (s : CidrSet) : Prop where
  max_nonneg : 0 ≤ s.maxCIDRs
  allocated_eq : s.allocatedCIDRs = popcount s.used
  bits_below : BitsBelow s.used s.maxCIDRs.toNat
  next_lt : 0 < s.maxCIDRs → s.nextCandidate < s.maxCIDRs.toNat

/-- What a loop keeps of the invariant: the count is the popcount, and every bit is below `n`. -/
def CountsBelow (n : ℕ) (acc : ℕ × ℤ) : Prop := acc.2 = popcount acc.1 ∧ BitsBelow acc.1 n

theorem CountsBelow.occupyBit {n i : ℕ} {acc : ℕ × ℤ} (h : CountsBelow n acc) (hi : i < n) :
    CountsBelow n (occupyBit acc i) := by
  unfold NodeIpam.occupyBit
  split
  · exact h
  · rename_i hbit
    refine ⟨?_, h.2.setBit_true hi⟩
    rw [popcount_setBit_true (by simpa using hbit), h.1]
    push_cast
    rfl

theorem CountsBelow.releaseBit {n : ℕ} {acc : ℕ × ℤ} (h : CountsBelow n acc) (i : ℕ) :
    CountsBelow n (releaseBit acc i) := by
  unfold NodeIpam.releaseBit
  split
  · rename_i hbit
    refine ⟨?_, h.2.setBit_false i⟩
    have := popcount_setBit_false hbit
    simp only [h.1]
    omega
  · exact h

theorem Inv.countsBelow (h : s.Inv) : CountsBelow s.maxCIDRs.toNat (s.used, s.allocatedCIDRs) :=
  ⟨h.allocated_eq, h.bits_below⟩

theorem Inv.withCounts (h : s.Inv) {acc : ℕ × ℤ} (hacc : CountsBelow s.maxCIDRs.toNat acc) :
    (s.withCounts acc).Inv :=
  ⟨h.max_nonneg, hacc.1, hacc.2, h.next_lt⟩

/-- An index `getIndexForIP` returns is below `maxCIDRs`, when that is not negative. -/
theorem getIndexForIP_lt {ip : Option IP} {k : ℕ} (hmax : 0 ≤ s.maxCIDRs)
    (h : s.getIndexForIP ip = .ok k) : k < s.maxCIDRs.toNat := by
  obtain ⟨m, hm⟩ : ∃ m : ℕ, s.maxCIDRs = m := ⟨s.maxCIDRs.toNat, by omega⟩
  have h32 := Go.toUnsigned_natCast_le 32 m
  have h64 := Go.toUnsigned_natCast_le 64 m
  unfold getIndexForIP at h
  rw [hm] at h
  split at h
  · dsimp only at h
    split_ifs at h with hk
    cases h
    omega
  · dsimp only at h
    split_ifs at h with hk
    cases h
    omega
  · cases h

/-- Every index the loops of `Occupy` and `Release` visit is a block index. -/
theorem getBeginingAndEndIndices_lt {cidr : Option IPNet} {first last : ℤ} (hmax : 0 ≤ s.maxCIDRs)
    (h : s.getBeginingAndEndIndices cidr = .ok (first, last)) :
    ∀ i ∈ indexRange first last, i < s.maxCIDRs.toNat := by
  intro i hi
  have hrange := List.mem_range'_1.mp hi
  unfold getBeginingAndEndIndices at h
  split at h
  · cases h
  · split_ifs at h
    · rename_i cidr _ _
      cases hfirst : s.getIndexForIP (cidr.ip.mask s.nodeMask) with
      | error e => simp [hfirst, bind, Except.bind] at h
      | ok k =>
        cases hip : lastIP cidr with
        | error e => simp [hfirst, hip, bind, Except.bind] at h
        | ok ip =>
          cases hlast : s.getIndexForIP (ip.mask s.nodeMask) with
          | error e => simp [hfirst, hip, hlast, bind, Except.bind] at h
          | ok k' =>
            simp only [hfirst, hip, hlast, bind, Except.bind, pure, Except.pure,
              Except.ok.injEq, Prod.mk.injEq] at h
            obtain ⟨rfl, rfl⟩ := h
            have := getIndexForIP_lt hmax hlast
            omega
    · cases h
      omega

theorem Inv.occupy (h : s.Inv) {cidr : Option IPNet} (hs : s.occupy cidr = .ok s') : s'.Inv := by
  obtain ⟨first, last, hr, rfl⟩ := occupy_eq_ok hs
  refine h.withCounts (List.foldlRecOn _ _ h.countsBelow fun acc hacc i hi => ?_)
  exact hacc.occupyBit (getBeginingAndEndIndices_lt h.max_nonneg hr i hi)

theorem Inv.release (h : s.Inv) {cidr : Option IPNet} (hs : s.release cidr = .ok s') : s'.Inv := by
  obtain ⟨first, last, hr, rfl⟩ := release_eq_ok hs
  exact h.withCounts (List.foldlRecOn _ _ h.countsBelow fun acc hacc i _ => hacc.releaseBit i)

/-- On a set that keeps the invariant, every block is used exactly when the counter has reached
`maxCIDRs`. -/
theorem Inv.full_iff (h : s.Inv) :
    s.allocatedCIDRs = s.maxCIDRs ↔ ∀ i < s.maxCIDRs.toNat, s.used.testBit i = true := by
  rw [← h.bits_below.popcount_eq_iff_all, h.allocated_eq]
  have := h.max_nonneg
  omega

/-- **`AllocateNext` on a set that keeps the invariant, when it succeeds**: it takes a free block
index below `maxCIDRs`, sets its bit, counts it and moves the cursor past it. -/
theorem Inv.allocateNext_ok (h : s.Inv) (hne : s.allocatedCIDRs ≠ s.maxCIDRs) :
    ∃ i < s.maxCIDRs.toNat, s.used.testBit i = false ∧
      s.allocateNext = .ok (s.indexToCIDRBlock i,
        { s with
          nextCandidate := (Int.tmod (i + 1) s.maxCIDRs).toNat
          used := setBit s.used i true
          allocatedCIDRs := s.allocatedCIDRs + 1 }) := by
  have hfree : ∃ j < s.maxCIDRs.toNat, (!s.used.testBit j) = true := by
    by_contra hall
    push Not at hall
    exact hne (h.full_iff.mpr fun i hi => by simpa using hall i hi)
  have hpos : 0 < s.maxCIDRs := by
    obtain ⟨j, hj, _⟩ := hfree
    omega
  obtain ⟨hc, hlt⟩ := Scan.stepScan_spec (h.next_lt hpos) hfree
  refine ⟨_, hlt, by simpa using hc, ?_⟩
  rw [allocateNext, if_neg hne]

/-- `AllocateNext` fails exactly when every block is used. -/
theorem Inv.allocateNext_error_iff (h : s.Inv) :
    (∃ e, s.allocateNext = .error e) ↔ ∀ i < s.maxCIDRs.toNat, s.used.testBit i = true := by
  simp only [allocateNext_eq_error, exists_eq_right, h.full_iff]

theorem Inv.allocateNext (h : s.Inv) {b : IPNet} (hs : s.allocateNext = .ok (b, s')) :
    s'.Inv := by
  have hne : s.allocatedCIDRs ≠ s.maxCIDRs := fun hfull => by
    rw [CidrSet.allocateNext, if_pos hfull] at hs
    cases hs
  obtain ⟨i, hi, hbit, hok⟩ := h.allocateNext_ok hne
  rw [hok] at hs
  cases hs
  have hpos : 0 < s.maxCIDRs := by omega
  refine ⟨h.max_nonneg, ?_, h.bits_below.setBit_true hi, fun _ => ?_⟩
  · simp only [popcount_setBit_true hbit, h.allocated_eq]
    push_cast
    rfl
  · have h0 := Int.tmod_nonneg s.maxCIDRs (by omega : (0 : ℤ) ≤ i + 1)
    have h1 := Int.tmod_lt_of_pos ((i : ℤ) + 1) hpos
    dsimp only
    omega

theorem Inv.perform (h : s.Inv) (c : Call) : (s.perform c).Inv := by
  cases c with
  | allocateNext =>
    simp only [CidrSet.perform]
    cases hs : s.allocateNext with
    | ok r =>
      obtain ⟨b, s'⟩ := r
      exact h.allocateNext hs
    | error => exact h
  | occupy cidr =>
    simp only [CidrSet.perform]
    cases hs : s.occupy cidr with
    | ok s' => exact h.occupy hs
    | error => exact h
  | release cidr =>
    simp only [CidrSet.perform]
    cases hs : s.release cidr with
    | ok s' => exact h.release hs
    | error => exact h

theorem Inv.performAll (h : s.Inv) (calls : List Call) : (s.performAll calls).Inv := by
  induction calls generalizing s with
  | nil => exact h
  | cons c calls ih => exact ih (h.perform c)

/-- A new set keeps the invariant whenever its `maxCIDRs` is not negative. -/
theorem inv_newCIDRSet {clusterCIDR : IPNet} {subNetMaskSize : ℤ} {s : CidrSet}
    (h : newCIDRSet clusterCIDR subNetMaskSize = .ok s) (hmax : 0 ≤ s.maxCIDRs) : s.Inv := by
  unfold newCIDRSet at h
  split_ifs at h
  cases h
  exact ⟨hmax, by simp, bitsBelow_zero _, fun hpos => by dsimp only at hpos ⊢; omega⟩

/-! ## Block addresses

With a cluster mask of `c` bits and a node mask of `n` bits on addresses of `bits` bits, block
`i < 2 ^ (n - c)` is the cluster address plus `i * 2 ^ (bits - n)`: the index fills the bits
between the two masks, which the cluster address leaves zero. The IPv6 code builds this address
as two 64-bit halves, in three ways depending on where the two masks fall. -/

section Blocks

variable {A c n i : ℕ}

/-- The index shifted above the node mask's host bits fits in the cluster's host bits. -/
theorem index_mul_lt {bits : ℕ} (hcn : c ≤ n) (hn : n ≤ bits) (hi : i < 2 ^ (n - c)) :
    i * 2 ^ (bits - n) < 2 ^ (bits - c) :=
  calc i * 2 ^ (bits - n) < 2 ^ (n - c) * 2 ^ (bits - n) :=
        Nat.mul_lt_mul_of_pos_right hi (Nat.two_pow_pos _)
    _ = 2 ^ (bits - c) := by rw [← pow_add]; congr 1; omega

/-- The shift of the index never loses a bit. -/
theorem shl_index {w : ℕ} (hcn : c ≤ n) (hn : n ≤ w) (hi : i < 2 ^ (n - c)) :
    Go.shl w i (w - n) = i * 2 ^ (w - n) := by
  by_cases hn0 : n = 0
  · obtain rfl : i = 0 := by simpa [hn0, show c = 0 by omega] using hi
    simp
  · exact Go.shl_of_lt (by omega)
      (lt_of_lt_of_le (index_mul_lt hcn hn hi) (Nat.pow_le_pow_right (by decide) (by omega)))

/-- A shift count of at most the width converts unchanged. -/
theorem toUnsigned_of_eq {w k : ℕ} {x : ℤ} (hx : x = k) (hk : k ≤ w) : Go.toUnsigned w x = k := by
  subst hx
  exact Go.toUnsigned_natCast (lt_of_le_of_lt hk Nat.lt_two_pow_self)

/-- The halves of an address whose low `128 - c` bits are zero, for `c ≤ 64`. -/
theorem halves_of_le (hA : A % 2 ^ (128 - c) = 0) (hc : c ≤ 64) :
    A / 2 ^ 64 % 2 ^ (64 - c) = 0 ∧ A % 2 ^ 64 = 0 ∧ A = A / 2 ^ 64 * 2 ^ 64 := by
  obtain ⟨q, rfl⟩ := Nat.dvd_of_mod_eq_zero hA
  have hsplit : 2 ^ (128 - c) = 2 ^ (64 - c) * 2 ^ 64 := by rw [← pow_add]; congr 1; omega
  have hdiv : 2 ^ (128 - c) * q / 2 ^ 64 = 2 ^ (64 - c) * q := by
    rw [hsplit, Nat.mul_right_comm, Nat.mul_div_cancel _ (Nat.two_pow_pos 64)]
  refine ⟨by rw [hdiv, Nat.mul_mod_right], ?_, ?_⟩
  · rw [hsplit, Nat.mul_right_comm, Nat.mul_mod_left]
  · rw [hdiv, hsplit]
    ring

/-- A node mask in the left half: the index goes into the left half only. -/
theorem v6_left_block (hA : A % 2 ^ (128 - c) = 0) (hcn : c ≤ n) (hn : n ≤ 64)
    (hi : i < 2 ^ (n - c)) :
    (A / 2 ^ 64 ||| i * 2 ^ (64 - n)) * 2 ^ 64 + A % 2 ^ 64 = A + i * 2 ^ (128 - n) := by
  obtain ⟨hL, hR, hA'⟩ := halves_of_le hA (by omega)
  rw [or_eq_add_of_mod_eq_zero hL (index_mul_lt hcn hn hi), hR]
  conv_rhs => rw [hA', show 128 - n = (64 - n) + 64 by omega, pow_add]
  ring

/-- A cluster mask in the left half and a node mask in the right half: the index's high bits
go into the left half, its low bits into the right half. -/
theorem v6_split_block (hA : A % 2 ^ (128 - c) = 0) (hc : c < 64) (hn : 64 < n)
    (hn' : n ≤ 128) (hi : i < 2 ^ (n - c)) :
    (A / 2 ^ 64 ||| i >>> (n - 64)) * 2 ^ 64 + (A % 2 ^ 64 ||| i * 2 ^ (128 - n) % 2 ^ 64) =
      A + i * 2 ^ (128 - n) := by
  obtain ⟨hL, hR, hA'⟩ := halves_of_le hA (by omega)
  have h64 : 2 ^ 64 = 2 ^ (n - 64) * 2 ^ (128 - n) := by rw [← pow_add]; congr 1; omega
  have hhigh : i >>> (n - 64) < 2 ^ (64 - c) := by
    rw [Nat.shiftRight_eq_div_pow]
    apply Nat.div_lt_of_lt_mul
    rw [← pow_add]
    exact lt_of_lt_of_le hi (Nat.pow_le_pow_right (by decide) (by omega))
  have hlow : i * 2 ^ (128 - n) % 2 ^ 64 = i % 2 ^ (n - 64) * 2 ^ (128 - n) := by
    rw [h64, Nat.mul_mod_mul_right]
  rw [or_eq_add_of_mod_eq_zero hL hhigh, hR, Nat.zero_or, hlow, Nat.shiftRight_eq_div_pow]
  conv_rhs => rw [hA', ← Nat.div_add_mod' i (2 ^ (n - 64))]
  rw [h64]
  ring

/-- A cluster mask in the right half: the index goes into the right half only. -/
theorem v6_right_block (hA : A % 2 ^ (128 - c) = 0) (hc : 64 ≤ c) (hcn : c ≤ n)
    (hn' : n ≤ 128) (hi : i < 2 ^ (n - c)) :
    A / 2 ^ 64 * 2 ^ 64 + (A % 2 ^ 64 ||| i * 2 ^ (128 - n) % 2 ^ 64) =
      A + i * 2 ^ (128 - n) := by
  have hlt : i * 2 ^ (128 - n) < 2 ^ (128 - c) := index_mul_lt hcn hn' hi
  have hR : A % 2 ^ 64 % 2 ^ (128 - c) = 0 := by
    rw [Nat.mod_mod_of_dvd _ (Nat.pow_dvd_pow 2 (by omega))]
    exact hA
  rw [Nat.mod_eq_of_lt (lt_of_lt_of_le hlt (Nat.pow_le_pow_right (by decide) (by omega))),
    or_eq_add_of_mod_eq_zero hR hlt, ← Nat.add_assoc, Nat.div_add_mod']

end Blocks

/-- The cluster CIDR is as `net.ParseCIDR` returns it and not an IPv4-in-IPv6 address, the node
mask size lies between the cluster's and the address length (and, for IPv6, at most
`clusterSubnetMaxDiff` above the cluster's), and `maxCIDRs` is the number of blocks. -/
structure Layout (s : CidrSet) : Prop where
  cluster_le_node : (s.clusterMaskSize : ℤ) ≤ s.nodeMaskSize
  node_le_bits : s.nodeMaskSize ≤ s.clusterCIDR.ip.family.bits
  host_zero : s.clusterCIDR.ip.addr % 2 ^ (s.clusterCIDR.ip.family.bits - s.clusterMaskSize) = 0
  to4_isSome : s.clusterCIDR.ip.to4.isSome ↔ s.clusterCIDR.ip.family = .v4
  v6_diff : s.clusterCIDR.ip.family = .v6 → s.nodeMaskSize - s.clusterMaskSize ≤ 16
  max_eq : s.maxCIDRs = 2 ^ (s.nodeMaskSize.toNat - s.clusterMaskSize)

theorem Layout.of_setup {t : CidrSet} (h : s.Layout) (he : t.setup = s.setup) : t.Layout := by
  have h1 : t.clusterCIDR = s.clusterCIDR := by
    have := congrArg CidrSet.clusterCIDR he
    exact this
  have h2 : t.clusterMaskSize = s.clusterMaskSize := by
    have := congrArg CidrSet.clusterMaskSize he
    exact this
  have h3 : t.nodeMaskSize = s.nodeMaskSize := by
    have := congrArg CidrSet.nodeMaskSize he
    exact this
  have h4 : t.maxCIDRs = s.maxCIDRs := by
    have := congrArg CidrSet.maxCIDRs he
    exact this
  obtain ⟨h₁, h₂, h₃, h₄, h₅, h₆⟩ := h
  exact ⟨h2 ▸ h3 ▸ h₁, h1 ▸ h3 ▸ h₂, h1 ▸ h2 ▸ h₃, h1 ▸ h₄, h1 ▸ h2 ▸ h3 ▸ h₅,
    h2 ▸ h3 ▸ h4 ▸ h₆⟩

/-- The blocks of an IPv4 cluster. -/
theorem indexToCIDRBlock_ip_of_v4 {n i : ℕ} (hf : s.clusterCIDR.ip.family = .v4) (hn : s.nodeMaskSize = n)
    (hcn : s.clusterMaskSize ≤ n) (hn32 : n ≤ 32)
    (hA : s.clusterCIDR.ip.addr % 2 ^ (32 - s.clusterMaskSize) = 0)
    (hi : i < 2 ^ (n - s.clusterMaskSize)) :
    (s.indexToCIDRBlock i).ip = IP.ofNat .v4 (s.clusterCIDR.ip.addr + i * 2 ^ (32 - n)) := by
  have h4 : s.clusterCIDR.ip.to4.isSome = true := by simp [IP.to4, hf]
  have hu : s.clusterCIDR.ip.uint32 = s.clusterCIDR.ip.addr := by simp [IP.uint32, hf]
  have hidx : Go.toUnsigned 32 i = i := Go.toUnsigned_natCast
    (lt_of_lt_of_le hi (Nat.pow_le_pow_right (by decide) (by omega)))
  have hshift : Go.toUnsigned 32 (32 - s.nodeMaskSize) = 32 - n :=
    toUnsigned_of_eq (by omega) (by omega)
  simp only [indexToCIDRBlock, h4, if_true, hu, hidx, hshift, shl_index hcn hn32 hi,
    or_eq_add_of_mod_eq_zero hA (index_mul_lt hcn hn32 hi)]

/-- The blocks of an IPv6 cluster, in each of the three cases of the two halves. -/
theorem indexToCIDRBlock_ip_of_v6 {n i : ℕ} (h4 : s.clusterCIDR.ip.to4 = none) (hn : s.nodeMaskSize = n)
    (hcn : s.clusterMaskSize ≤ n) (hn128 : n ≤ 128) (hd : n - s.clusterMaskSize ≤ 16)
    (hA : s.clusterCIDR.ip.addr % 2 ^ (128 - s.clusterMaskSize) = 0)
    (hi : i < 2 ^ (n - s.clusterMaskSize)) :
    (s.indexToCIDRBlock i).ip = IP.ofNat .v6 (s.clusterCIDR.ip.addr + i * 2 ^ (128 - n)) := by
  have hidx : Go.toUnsigned 64 i = i := Go.toUnsigned_natCast
    (lt_of_lt_of_le hi (Nat.pow_le_pow_right (by decide) (by omega)))
  simp only [indexToCIDRBlock, h4, Option.isSome_none, Bool.false_eq_true, if_false, hidx, hn]
  by_cases hn64 : n ≤ 64
  · have hshift : Go.toUnsigned 64 (64 - (n : ℤ)) = 64 - n := toUnsigned_of_eq (by omega) (by omega)
    simp only [show (n : ℤ) ≤ 64 by omega, if_true, hshift, shl_index hcn hn64 hi]
    rw [v6_left_block hA hcn hn64 hi]
  · have hbtl : Go.toUnsigned 64 ((n : ℤ) - 64) = n - 64 := toUnsigned_of_eq (by omega) (by omega)
    have hsh : Go.toUnsigned 64 (128 - (n : ℤ)) = 128 - n := toUnsigned_of_eq (by omega) (by omega)
    have hright : Go.shl 64 i (128 - n) = i * 2 ^ (128 - n) % 2 ^ 64 := by
      simp [Go.shl, show 128 - n < 64 by omega]
    simp only [show ¬ (n : ℤ) ≤ 64 by omega, if_false, hbtl, hsh, hright]
    by_cases hc : s.clusterMaskSize < 64
    · -- a short index leaves the left half alone, as shifting it out would
      have hleft : (if s.clusterMaskSize < 64 ∧ Go.len64 i > n - 64 then
          s.clusterCIDR.ip.addr / 2 ^ 64 ||| i >>> (n - 64) else s.clusterCIDR.ip.addr / 2 ^ 64) =
          s.clusterCIDR.ip.addr / 2 ^ 64 ||| i >>> (n - 64) := by
        split_ifs with hlen
        · rfl
        · rw [Go.shiftRight_eq_zero_of_len64_le (by omega), Nat.or_zero]
      rw [hleft, v6_split_block hA hc (by omega) hn128 hi]
    · rw [if_neg (by omega), v6_right_block hA (by omega) hcn hn128 hi]

theorem Layout.index_lt (h : s.Layout) {i : ℕ} (hi : i < s.maxCIDRs.toNat) :
    i < 2 ^ (s.nodeMaskSize.toNat - s.clusterMaskSize) := by
  rw [h.max_eq] at hi
  exact_mod_cast hi

/-- **Block `i` is the cluster address plus `i` blocks.** -/
theorem Layout.indexToCIDRBlock_ip (h : s.Layout) {i : ℕ} (hi : i < s.maxCIDRs.toNat) :
    (s.indexToCIDRBlock i).ip = IP.ofNat s.clusterCIDR.ip.family
      (s.clusterCIDR.ip.addr + i * 2 ^ (s.clusterCIDR.ip.family.bits - s.nodeMaskSize.toNat)) := by
  have hc := h.cluster_le_node
  have hb := h.node_le_bits
  have hi' := h.index_lt hi
  have hA := h.host_zero
  cases hf : s.clusterCIDR.ip.family with
  | v4 =>
    rw [hf] at hA hb
    exact indexToCIDRBlock_ip_of_v4 hf (by omega) (by omega) (by simp at hb; omega) hA hi'
  | v6 =>
    have h4 : s.clusterCIDR.ip.to4 = none := by
      simpa [hf] using h.to4_isSome
    have hd := h.v6_diff hf
    rw [hf] at hA hb
    exact indexToCIDRBlock_ip_of_v6 h4 (by omega) (by omega) (by simp at hb; omega) (by omega) hA hi'

/-- The address of block `i` does not wrap around. -/
theorem Layout.indexToCIDRBlock_addr (h : s.Layout) {i : ℕ} (hi : i < s.maxCIDRs.toNat) :
    (s.indexToCIDRBlock i).ip.addr = s.clusterCIDR.ip.addr +
      i * 2 ^ (s.clusterCIDR.ip.family.bits - s.nodeMaskSize.toNat) := by
  have hc := h.cluster_le_node
  have hb := h.node_le_bits
  rw [h.indexToCIDRBlock_ip hi, IP.ofNat_addr, Nat.mod_eq_of_lt]
  exact add_lt_two_pow_of_mod_eq_zero h.host_zero s.clusterCIDR.ip.addr_lt (by omega)
    (index_mul_lt (by omega) (by omega) (h.index_lt hi))

/-- **Distinct block indices give distinct blocks.** -/
theorem Layout.indexToCIDRBlock_injective (h : s.Layout) {i j : ℕ} (hi : i < s.maxCIDRs.toNat)
    (hj : j < s.maxCIDRs.toNat) (heq : s.indexToCIDRBlock i = s.indexToCIDRBlock j) : i = j := by
  have haddr := congrArg IP.addr (congrArg IPNet.ip heq)
  rw [h.indexToCIDRBlock_addr hi, h.indexToCIDRBlock_addr hj] at haddr
  exact Nat.eq_of_mul_eq_mul_right (Nat.two_pow_pos _) (Nat.add_left_cancel haddr)

/-! ## Blocks stay taken until released -/

theorem used_allocateNext {b : IPNet} (h : s.allocateNext = .ok (b, s')) :
    ∃ k, s'.used = setBit s.used k true := by
  unfold allocateNext at h
  split_ifs at h
  cases h
  exact ⟨_, rfl⟩

theorem testBit_foldl_occupyBit {k : ℕ} (l : List ℕ) {acc : ℕ × ℤ} (h : acc.1.testBit k) :
    (l.foldl occupyBit acc).1.testBit k :=
  List.foldlRecOn (motive := fun acc : ℕ × ℤ => acc.1.testBit k = true) l occupyBit h
    fun acc hacc i _ => by
      unfold occupyBit
      split
      · exact hacc
      · simp [hacc]

theorem testBit_foldl_releaseBit {k : ℕ} {l : List ℕ} (hk : k ∉ l) {acc : ℕ × ℤ}
    (h : acc.1.testBit k) : (l.foldl releaseBit acc).1.testBit k :=
  List.foldlRecOn (motive := fun acc : ℕ × ℤ => acc.1.testBit k = true) l releaseBit h
    fun acc hacc i hi => by
      have hne : i ≠ k := fun hik => hk (hik ▸ hi)
      unfold releaseBit
      split
      · simp [hacc, hne]
      · exact hacc

/-- **A call that does not release block `i` leaves it taken.** -/
theorem testBit_perform {t : CidrSet} (ht : t.setup = s.setup) {c : Call} {k : ℕ}
    (hbit : t.used.testBit k) (hc : ¬ c.Covers s (s.indexToCIDRBlock k)) :
    (t.perform c).used.testBit k := by
  cases c with
  | allocateNext =>
    simp only [perform]
    cases hs : t.allocateNext with
    | ok r =>
      obtain ⟨b, t'⟩ := r
      obtain ⟨j, hj⟩ := used_allocateNext hs
      simp [hj, hbit]
    | error => exact hbit
  | occupy cidr =>
    simp only [perform]
    cases hs : t.occupy cidr with
    | ok t' =>
      obtain ⟨_, _, _, rfl⟩ := occupy_eq_ok hs
      exact testBit_foldl_occupyBit _ hbit
    | error => exact hbit
  | release cidr =>
    simp only [perform]
    cases hs : t.release cidr with
    | ok t' =>
      obtain ⟨first, last, hr, rfl⟩ := release_eq_ok hs
      have hk : k ∉ indexRange first last := fun hk => hc ⟨cidr, rfl, first, last,
        by rw [← getBeginingAndEndIndices_setup, ← ht, getBeginingAndEndIndices_setup]; exact hr,
        k, hk, rfl⟩
      exact testBit_foldl_releaseBit hk hbit
    | error => exact hbit

theorem testBit_performAll {t : CidrSet} (ht : t.setup = s.setup) {calls : List Call} {k : ℕ}
    (hbit : t.used.testBit k) (hc : ∀ c ∈ calls, ¬ c.Covers s (s.indexToCIDRBlock k)) :
    (t.performAll calls).used.testBit k := by
  induction calls generalizing t with
  | nil => exact hbit
  | cons c calls ih =>
    exact ih ((setup_perform c).trans ht) (testBit_perform ht hbit (hc c (by simp)))
      fun c' hc' => hc c' (by simp [hc'])

/-! ## New sets -/

/-- **`NewCIDRSet` lays the blocks out** when the cluster CIDR is as `net.ParseCIDR` returns it
and not an IPv4-in-IPv6 address, and the node mask size lies between the cluster's and the
address length. -/
theorem layout_newCIDRSet {clusterCIDR : IPNet} {subNetMaskSize : ℤ}
    (hparsed : clusterCIDR.Parsed)
    (hmapped : clusterCIDR.ip.family = .v6 → clusterCIDR.ip.to4 = none)
    (hcluster : ((IPMask.size clusterCIDR.mask).1 : ℤ) ≤ subNetMaskSize)
    (hnode : subNetMaskSize ≤ clusterCIDR.ip.family.bits)
    (h : newCIDRSet clusterCIDR subNetMaskSize = .ok s) : s.Layout := by
  obtain ⟨m, hm, hmf⟩ := hparsed.mask_family
  have hsize : IPMask.size clusterCIDR.mask = (m.ones, clusterCIDR.ip.family.bits) := by
    simp [IPMask.size, hm, hmf]
  have hto4 : clusterCIDR.ip.to4.isSome ↔ clusterCIDR.ip.family = .v4 := by
    cases hf : clusterCIDR.ip.family with
    | v4 => simp [IP.to4, hf]
    | v6 => simp [hmapped hf]
  unfold newCIDRSet at h
  split_ifs at h with hcheck
  cases h
  simp only [hsize] at hcheck hcluster
  have hd16 : clusterCIDR.ip.family = .v6 → subNetMaskSize - m.ones ≤ 16 := fun hf => by
    have : ¬ subNetMaskSize - m.ones > clusterSubnetMaxDiff := fun hgt => hcheck ⟨hmapped hf, hgt⟩
    simp only [clusterSubnetMaxDiff] at this
    omega
  have hd : subNetMaskSize - m.ones ≤ 32 := by
    cases hf : clusterCIDR.ip.family with
    | v4 =>
      rw [hf] at hnode
      simp only [Family.bits_v4] at hnode
      omega
    | v6 => exact (hd16 hf).trans (by decide)
  refine ⟨?_, hnode, ?_, hto4, ?_, ?_⟩ <;> simp only [hsize]
  · exact hcluster
  · exact hparsed.host_zero m hm
  · exact hd16
  · rw [toUnsigned_of_eq (show subNetMaskSize - m.ones = ((subNetMaskSize.toNat - m.ones : ℕ) : ℤ)
      by omega) (by omega), Go.intShl_one (by omega)]

/-! ## The blocks `AllocateNext` hands out -/

/-- **The CIDR set counts its blocks and hands each out once.** For a set built by `NewCIDRSet`
from a cluster CIDR as `net.ParseCIDR` returns it (not an IPv4-in-IPv6 address) and a node mask
size between the cluster's and the address length, after any calls: `allocatedCIDRs` is the
number of set bits of `used` and every set bit is below `maxCIDRs`; `AllocateNext` fails exactly
when every block is used, and otherwise returns the block of an index that was free; and a block
it returns differs from every block a later `AllocateNext` returns, as long as no `Release` in
between covers it. -/
theorem newCIDRSet_allocateNext_distinct {clusterCIDR : IPNet} {subNetMaskSize : ℤ}
    {s₀ : CidrSet} (hparsed : clusterCIDR.Parsed)
    (hmapped : clusterCIDR.ip.family = .v6 → clusterCIDR.ip.to4 = none)
    (hcluster : ((IPMask.size clusterCIDR.mask).1 : ℤ) ≤ subNetMaskSize)
    (hnode : subNetMaskSize ≤ clusterCIDR.ip.family.bits)
    (hnew : newCIDRSet clusterCIDR subNetMaskSize = .ok s₀) (pre : List Call) :
    let s := s₀.performAll pre
    s.allocatedCIDRs = popcount s.used ∧ BitsBelow s.used s.maxCIDRs.toNat ∧
      ((∃ e, s.allocateNext = .error e) ↔ ∀ i < s.maxCIDRs.toNat, s.used.testBit i = true) ∧
      ∀ b₁ s₁, s.allocateNext = .ok (b₁, s₁) →
        (∃ i < s.maxCIDRs.toNat, s.used.testBit i = false ∧ b₁ = s.indexToCIDRBlock i) ∧
        ∀ mid b₂ s₂, (∀ c ∈ mid, ¬ c.Covers s b₁) →
          (s₁.performAll mid).allocateNext = .ok (b₂, s₂) → b₁ ≠ b₂ := by
  intro s
  have hlay₀ := layout_newCIDRSet hparsed hmapped hcluster hnode hnew
  have hinv : s.Inv := (inv_newCIDRSet hnew (by rw [hlay₀.max_eq]; positivity)).performAll pre
  have hlay : s.Layout := hlay₀.of_setup (setup_performAll pre)
  refine ⟨hinv.allocated_eq, hinv.bits_below, hinv.allocateNext_error_iff,
    fun b₁ s₁ h₁ => ?_⟩
  have hne : s.allocatedCIDRs ≠ s.maxCIDRs := fun hfull => by
    rw [CidrSet.allocateNext, if_pos hfull] at h₁
    cases h₁
  obtain ⟨i₁, hi₁, hfree₁, hok₁⟩ := hinv.allocateNext_ok hne
  rw [hok₁] at h₁
  obtain ⟨rfl, rfl⟩ := Prod.mk.inj (Except.ok.inj h₁)
  refine ⟨⟨i₁, hi₁, hfree₁, rfl⟩, fun mid b₂ s₂ hmid h₂ => ?_⟩
  set t := ({ s with
      nextCandidate := (Int.tmod (i₁ + 1) s.maxCIDRs).toNat
      used := setBit s.used i₁ true
      allocatedCIDRs := s.allocatedCIDRs + 1 } : CidrSet).performAll mid with ht
  have hts : t.setup = s.setup := setup_performAll mid
  have htaken : t.used.testBit i₁ = true :=
    testBit_performAll rfl (by simp) hmid
  have htinv : t.Inv := (hinv.allocateNext (by rw [hok₁])).performAll mid
  have hne₂ : t.allocatedCIDRs ≠ t.maxCIDRs := fun hfull => by
    rw [CidrSet.allocateNext, if_pos hfull] at h₂
    cases h₂
  obtain ⟨i₂, hi₂, hfree₂, hok₂⟩ := htinv.allocateNext_ok hne₂
  rw [hok₂] at h₂
  obtain ⟨rfl, rfl⟩ := Prod.mk.inj (Except.ok.inj h₂)
  have hmax : t.maxCIDRs = s.maxCIDRs := by
    have := congrArg CidrSet.maxCIDRs hts
    exact this
  have hblock : t.indexToCIDRBlock i₂ = s.indexToCIDRBlock i₂ := by
    rw [← indexToCIDRBlock_setup, hts, indexToCIDRBlock_setup]
  intro heq
  rw [hblock] at heq
  have hsame : i₁ = i₂ := hlay.indexToCIDRBlock_injective hi₁ (hmax ▸ hi₂) heq
  rw [hsame, hfree₂] at htaken
  cases htaken

/-- The cluster `10.0.0.0/24` cut into `/26` blocks. -/
theorem newCIDRSet_ten_slash_24_distinct :
    let s₀ : CidrSet :=
      { clusterCIDR := ⟨IP.ofNat .v4 167772160, cidrMask 24 32⟩, clusterMaskSize := 24,
        nodeMask := cidrMask 26 32, nodeMaskSize := 26, maxCIDRs := 4, allocatedCIDRs := 0,
        nextCandidate := 0, used := 0 }
    let s := s₀.performAll []
    s.allocatedCIDRs = popcount s.used ∧ BitsBelow s.used s.maxCIDRs.toNat ∧
      ((∃ e, s.allocateNext = .error e) ↔ ∀ i < s.maxCIDRs.toNat, s.used.testBit i = true) ∧
      ∀ b₁ s₁, s.allocateNext = .ok (b₁, s₁) →
        (∃ i < s.maxCIDRs.toNat, s.used.testBit i = false ∧ b₁ = s.indexToCIDRBlock i) ∧
        ∀ mid b₂ s₂, (∀ c ∈ mid, ¬ c.Covers s b₁) →
          (s₁.performAll mid).allocateNext = .ok (b₂, s₂) → b₁ ≠ b₂ := by
  have hmask : cidrMask 24 32 = some ⟨24, .v4, by decide⟩ := rfl
  have hparsed : IPNet.Parsed ⟨IP.ofNat .v4 167772160, cidrMask 24 32⟩ :=
    ⟨⟨_, hmask, rfl⟩, fun m hm => by
      rw [hmask, Option.some.injEq] at hm
      subst hm
      decide⟩
  exact @newCIDRSet_allocateNext_distinct _ 26 _ hparsed (by decide) (by decide) (by decide)
    (by decide) []

/-- **Two clusters on which `AllocateNext` hands out one block twice.** With the cluster
`10.0.0.0/8` and a node mask size of 33, `NewCIDRSet` succeeds, and two `AllocateNext` calls take
indices 0 and 1 but return the same block: the shift count `uint32(32 - 33)` wraps to
`2 ^ 32 - 1`, which shifts the index out, and `net.CIDRMask(33, 32)` is `nil`. With the
IPv4-in-IPv6 cluster `::ffff:10.0.0.0/104` and a node mask size of 112, the same happens:
`To4()` sends `indexToCIDRBlock` to the IPv4 branch, which reads the first four bytes of the
sixteen-byte address, all zero, and shifts the index by `uint32(32 - 112)`, out of the word. -/
theorem newCIDRSet_allocateNext_same_block :
    (let clusterCIDR : IPNet := ⟨IP.ofNat .v4 167772160, cidrMask 8 32⟩
     clusterCIDR.Parsed ∧ ∃ s₀ b s₁ s₂, newCIDRSet clusterCIDR 33 = .ok s₀ ∧
       s₀.allocateNext = .ok (b, s₁) ∧ s₁.allocateNext = .ok (b, s₂)) ∧
    (let clusterCIDR : IPNet := ⟨IP.ofNat .v6 0xffff0a000000, cidrMask 104 128⟩
     clusterCIDR.Parsed ∧ clusterCIDR.ip.to4 ≠ none ∧ ∃ s₀ b s₁ s₂,
       newCIDRSet clusterCIDR 112 = .ok s₀ ∧
       s₀.allocateNext = .ok (b, s₁) ∧ s₁.allocateNext = .ok (b, s₂)) := by
  constructor
  · have hmask : cidrMask 8 32 = some ⟨8, .v4, by decide⟩ := rfl
    let s₀ : CidrSet :=
      { clusterCIDR := ⟨IP.ofNat .v4 167772160, cidrMask 8 32⟩, clusterMaskSize := 8,
        nodeMask := none, nodeMaskSize := 33, maxCIDRs := 2 ^ 25, allocatedCIDRs := 0,
        nextCandidate := 0, used := 0 }
    refine ⟨⟨⟨_, hmask, rfl⟩, fun m hm => ?_⟩, s₀, ⟨IP.ofNat .v4 167772160, none⟩,
      { s₀ with allocatedCIDRs := 1, nextCandidate := 1, used := 1 },
      { s₀ with allocatedCIDRs := 2, nextCandidate := 2, used := 3 }, by decide, by decide,
      by decide⟩
    rw [hmask, Option.some.injEq] at hm
    subst hm
    decide
  · have hmask : cidrMask 104 128 = some ⟨104, .v6, by decide⟩ := rfl
    let s₀ : CidrSet :=
      { clusterCIDR := ⟨IP.ofNat .v6 0xffff0a000000, cidrMask 104 128⟩, clusterMaskSize := 104,
        nodeMask := cidrMask 112 128, nodeMaskSize := 112, maxCIDRs := 256, allocatedCIDRs := 0,
        nextCandidate := 0, used := 0 }
    refine ⟨⟨⟨_, hmask, rfl⟩, fun m hm => ?_⟩, by decide, s₀, ⟨IP.ofNat .v4 0, cidrMask 112 128⟩,
      { s₀ with allocatedCIDRs := 1, nextCandidate := 1, used := 1 },
      { s₀ with allocatedCIDRs := 2, nextCandidate := 2, used := 3 }, by decide, by decide,
      by decide⟩
    rw [hmask, Option.some.injEq] at hm
    subst hm
    decide

end CidrSet

end Kubernetes.NodeIpam
