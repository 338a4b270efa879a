import Kubernetes.Foundations.Bits
import Kubernetes.Foundations.Scan

/-!
# The allocation bitmap

`AllocationBitmap` (`pkg/registry/core/service/allocator/bitmap.go`) hands out the offsets
`0, …, max - 1` of a range: bit `o` of the big integer `allocated` is set while offset `o` is
taken, and `count` is kept equal to the number of set bits. `Allocate`, `AllocateNext` and
`Release` adjust `count` by one as they flip a bit; `Restore` replaces the bitmap by a snapshot
and recomputes `count` with `countBits`. `AllocateNext` first asks the strategy for a free bit:
the random scan starts at a random offset and wraps around, the contiguous scan starts at `0`;
both refuse outright when `count ≥ max`.

`Reachable` is every bitmap built by the constructors and then any sequence of in-range
`Allocate`, `AllocateNext`, `Release` and `Restore` of a snapshot of a bitmap of the same size.
On all of them `count` is the popcount of `allocated` and every set bit is an offset of the
range (`Reachable.consistent`), so `AllocateNext` hands out a free offset of the range and fails
exactly when the range is full (`reachable_consistent_allocateNext`).

`ForEach` reads the bitmap a machine word at a time and each word a bit at a time; it lists the
set bits of `allocated` in increasing order (`forEach_eq`). `Snapshot` writes the bitmap's bytes
and `Restore` reads them back, so a snapshot restored into a new bitmap of the same size answers
every query as the original (`reachable_snapshot_restore_forEach`).
-/

namespace Kubernetes.Allocator

open Bitset

/-- How `AllocateNext` looks for a free offset (`bitAllocator`). -/
inductive Strategy
  | randomScan
  | contiguousScan
  deriving DecidableEq, Repr

/-- `AllocationBitmap`. -/
structure AllocationBitmap where
  strategy : Strategy
  max : ℕ
  rangeSpec : String
  count : ℤ
  allocated : ℕ
  deriving DecidableEq, Repr

/-- `bitAllocator.AllocateBit` of either strategy: a free offset, or `(0, false)`. `rnd` is the
random scan's draw `rand.Intn(max)`; the contiguous scan ignores it. -/
def allocateBit : Strategy → ℕ → ℕ → ℕ → ℤ → ℕ × Bool
  | .randomScan, rnd, allocated, max, count =>
    if (max : ℤ) ≤ count then (0, false) else
      match (Scan.rotation max rnd).find? (fun a => !allocated.testBit a) with
      | some a => (a, true)
      | none => (0, false)
  | .contiguousScan, _, allocated, max, count =>
    if (max : ℤ) ≤ count then (0, false) else
      match (List.range max).find? (fun i => !allocated.testBit i) with
      | some i => (i, true)
      | none => (0, false)

namespace AllocationBitmap

/-- `NewAllocationMap` (random scan) and `NewContiguousAllocationMap` (contiguous scan). -/
def new (strategy : Strategy) (max : ℕ) (rangeSpec : String) : AllocationBitmap :=
  { strategy, max, rangeSpec, count := 0, allocated := 0 }

/-- `Allocate`: reserve `offset`; `false` when it is already in use. -/
def allocate (r : AllocationBitmap) (offset : ℕ) : Bool × AllocationBitmap :=
  if r.allocated.testBit offset then (false, r)
  else (true, { r with allocated := setBit r.allocated offset true, count := r.count + 1 })

/-- `AllocateNext`: reserve the offset the strategy finds; `(0, false)` when it finds none. -/
def allocateNext (r : AllocationBitmap) (rnd : ℕ) : (ℕ × Bool) × AllocationBitmap :=
  match allocateBit r.strategy rnd r.allocated r.max r.count with
  | (next, true) =>
    ((next, true), { r with count := r.count + 1, allocated := setBit r.allocated next true })
  | (_, false) => ((0, false), r)

/-- `Release`: give `offset` back; a no-op when it is not allocated. -/
def release (r : AllocationBitmap) (offset : ℕ) : AllocationBitmap :=
  if r.allocated.testBit offset then
    { r with allocated := setBit r.allocated offset false, count := r.count - 1 }
  else r

/-- `Has`. -/
def has (r : AllocationBitmap) (offset : ℕ) : Bool := r.allocated.testBit offset

/-- `Free`: the number of offsets left. -/
def free (r : AllocationBitmap) : ℤ := r.max - r.count

/-- `Snapshot`: the range and the bytes of the bitmap. -/
def snapshot (r : AllocationBitmap) : String × List ℕ := (r.rangeSpec, bytes r.allocated)

/-- `Restore`: replace the bitmap by `data` and recount, unless the range differs. -/
def restore (r : AllocationBitmap) (rangeSpec : String) (data : List ℕ) :
    Except String AllocationBitmap :=
  if r.rangeSpec ≠ rangeSpec then .error "the provided range does not match the current range"
  else .ok { r with allocated := setBytes data, count := countBits (setBytes data) }

/-- The offsets `ForEach` hands to `fn` from one word of the bitmap, from bit `bit` of the word
on, the word starting at offset `base`: the loop tests the low bit, then shifts the word right
(clearing the low bit before the shift, as the code does, leaves the shifted word the same). -/
def forEachBit (base word bit : ℕ) : List ℕ :=
  if word = 0 then [] else
    (if word % 2 = 1 then [base + bit] else []) ++ forEachBit base (word / 2) (bit + 1)
termination_by word
decreasing_by omega

/-- `ForEach`'s loop over the words of the bitmap (`allocated.Bits()`, least significant word
first), word `wordIdx` starting at offset `wordIdx * wordSize * 8`. -/
def forEachWords (wordSize : ℕ) : ℕ → List ℕ → List ℕ
  | _, [] => []
  | wordIdx, word :: words =>
    forEachBit (wordIdx * wordSize * 8) word 0 ++ forEachWords wordSize (wordIdx + 1) words

/-- `ForEach(fn)`: the offsets it calls `fn` with, in order. `wordSize` is the size of a
`big.Word` in bytes, which the code derives from the platform's word; the words of `allocated`
are its digits in base `2 ^ (wordSize * 8)`. -/
def forEach (r : AllocationBitmap) (wordSize : ℕ) : List ℕ :=
  forEachWords wordSize 0 (Nat.digits (2 ^ (wordSize * 8)) r.allocated)

/-- The bitmap after a `Restore`, whether it succeeded or not. -/
def afterRestore (r : AllocationBitmap) (rangeSpec : String) (data : List ℕ) :
    AllocationBitmap :=
  match r.restore rangeSpec data with
  | .ok r' => r'
  | .error _ => r

/-! ## What each operation does to the bitmap -/

/-- A strategy only ever returns a clear bit of the range. -/
theorem allocateBit_eq_true {st : Strategy} {rnd allocated max o : ℕ} {count : ℤ}
    (h : allocateBit st rnd allocated max count = (o, true)) :
    allocated.testBit o = false ∧ o < max := by
  cases st with
  | randomScan =>
    simp only [allocateBit] at h
    split_ifs at h
    · simp at h
    · split at h
      · rename_i a ha
        obtain rfl : a = o := (Prod.mk.inj h).1
        obtain ⟨hfree, hlt⟩ := Scan.find?_rotation_eq_some ha
        exact ⟨by simpa using hfree, hlt⟩
      · simp at h
  | contiguousScan =>
    simp only [allocateBit] at h
    split_ifs at h
    · simp at h
    · split at h
      · rename_i i hi
        obtain rfl : i = o := (Prod.mk.inj h).1
        exact ⟨by simpa using List.find?_some hi, List.mem_range.mp (List.mem_of_find?_eq_some hi)⟩
      · simp at h

theorem allocate_eq_true {r r' : AllocationBitmap} {offset : ℕ}
    (h : r.allocate offset = (true, r')) :
    r.allocated.testBit offset = false ∧ r'.allocated = setBit r.allocated offset true := by
  unfold AllocationBitmap.allocate at h
  split at h
  · simp at h
  · rename_i hbit
    obtain rfl := (Prod.mk.inj h).2
    exact ⟨by simpa using hbit, rfl⟩

theorem allocateNext_eq_true {r r' : AllocationBitmap} {rnd next : ℕ}
    (h : r.allocateNext rnd = ((next, true), r')) :
    r.allocated.testBit next = false ∧ r'.allocated = setBit r.allocated next true := by
  unfold AllocationBitmap.allocateNext at h
  split at h
  · rename_i n hn
    simp only [Prod.mk.injEq, and_true] at h
    obtain ⟨rfl, rfl⟩ := h
    exact ⟨(allocateBit_eq_true hn).1, rfl⟩
  · simp at h

@[simp] theorem allocate_max (r : AllocationBitmap) (offset : ℕ) :
    (r.allocate offset).2.max = r.max := by
  unfold AllocationBitmap.allocate
  split <;> rfl

@[simp] theorem allocateNext_max (r : AllocationBitmap) (rnd : ℕ) :
    (r.allocateNext rnd).2.max = r.max := by
  unfold AllocationBitmap.allocateNext
  split <;> rfl

@[simp] theorem release_max (r : AllocationBitmap) (offset : ℕ) :
    (r.release offset).max = r.max := by
  unfold AllocationBitmap.release
  split <;> rfl

/-- `AllocateNext` hands out an offset of the range. -/
theorem allocateNext_lt {r r' : AllocationBitmap} {rnd next : ℕ}
    (h : r.allocateNext rnd = ((next, true), r')) : next < r.max := by
  unfold AllocationBitmap.allocateNext at h
  split at h
  · rename_i n hn
    obtain rfl : n = next := (Prod.mk.inj (Prod.mk.inj h).1).1
    exact (allocateBit_eq_true hn).2
  · simp at h

/-- An `Allocate` that refuses leaves the bitmap as it was. -/
theorem allocate_eq_false {r : AllocationBitmap} {offset : ℕ} (h : (r.allocate offset).1 = false) :
    (r.allocate offset).2 = r := by
  unfold AllocationBitmap.allocate at h ⊢
  split_ifs at h ⊢
  rfl

/-- An `AllocateNext` that finds nothing leaves the bitmap as it was. -/
theorem allocateNext_eq_false {r : AllocationBitmap} {rnd : ℕ}
    (h : (r.allocateNext rnd).1.2 = false) : (r.allocateNext rnd).2 = r := by
  unfold AllocationBitmap.allocateNext at h ⊢
  split
  · rename_i heq
    simp [heq] at h
  · rfl

@[simp] theorem release_allocated (r : AllocationBitmap) (offset : ℕ) :
    (r.release offset).allocated = setBit r.allocated offset false := by
  unfold AllocationBitmap.release
  split
  · rfl
  · rename_i hbit
    exact (setBit_false_of_testBit (by simpa using hbit)).symm

theorem restore_ok {r r' : AllocationBitmap} {rangeSpec : String} {data : List ℕ}
    (h : r.restore rangeSpec data = .ok r') : r'.allocated = setBytes data := by
  unfold AllocationBitmap.restore at h
  split_ifs at h
  cases h
  rfl

/-! ## The consistency invariant -/

/-- `count` is the number of set bits, and every set bit is an offset of the range. -/
structure Consistent (r : AllocationBitmap) : Prop where
  count_eq : r.count = popcount r.allocated
  bits_below : BitsBelow r.allocated r.max

theorem consistent_new (strategy : Strategy) (max : ℕ) (rangeSpec : String) :
    (new strategy max rangeSpec).Consistent :=
  ⟨by simp [new], bitsBelow_zero _⟩

theorem Consistent.allocate {r : AllocationBitmap} (h : r.Consistent) {offset : ℕ}
    (ho : offset < r.max) : (r.allocate offset).2.Consistent := by
  unfold AllocationBitmap.allocate
  split
  · exact h
  · rename_i hbit
    refine ⟨?_, h.bits_below.setBit_true ho⟩
    simp only [popcount_setBit_true (Bool.eq_false_iff.mpr hbit), h.count_eq]
    push_cast; rfl

theorem Consistent.release {r : AllocationBitmap} (h : r.Consistent) (offset : ℕ) :
    (r.release offset).Consistent := by
  unfold AllocationBitmap.release
  split
  · rename_i hbit
    refine ⟨?_, h.bits_below.setBit_false offset⟩
    have := popcount_setBit_false hbit
    simp only [h.count_eq]
    omega
  · exact h

theorem Consistent.afterRestore {r r' : AllocationBitmap} (h : r.Consistent)
    (h' : r'.Consistent) (hmax : r'.max = r.max) (rangeSpec : String) :
    (r.afterRestore rangeSpec r'.snapshot.2).Consistent := by
  unfold AllocationBitmap.afterRestore restore
  split_ifs with hr
  · exact h
  · simp only [snapshot, setBytes_bytes]
    exact ⟨by rw [countBits_eq_popcount], hmax ▸ h'.bits_below⟩

/-- `count` never exceeds the size of the range: `Free` is never negative. -/
theorem Consistent.free_nonneg {r : AllocationBitmap} (h : r.Consistent) : 0 ≤ r.free := by
  have := h.bits_below.popcount_le
  simp only [free, h.count_eq]
  omega

/-- The range is full exactly when `count` has reached `max`. -/
theorem Consistent.full_iff {r : AllocationBitmap} (h : r.Consistent) :
    (r.max : ℤ) ≤ r.count ↔ ∀ o < r.max, r.has o = true := by
  have hle := h.bits_below.popcount_le
  simp only [h.count_eq, has, ← h.bits_below.popcount_eq_iff_all]
  omega

/-! ## `ForEach` and the snapshot -/

/-- One word's loop hands out the word's set bits in increasing order, moved to where the loop
started. -/
theorem forEachBit_eq (base word bit : ℕ) :
    forEachBit base word bit = word.bitIndices.map (· + (base + bit)) := by
  induction word using Nat.strong_induction_on generalizing bit with
  | _ word ih =>
    rw [forEachBit]
    split_ifs with hzero hodd
    · simp [hzero]
    · have hsplit : word = 2 * (word / 2) + 1 := by omega
      rw [ih _ (by omega)]
      conv_rhs => rw [hsplit, Nat.bitIndices_two_mul_add_one]
      simp [Function.comp_def, Nat.add_assoc, Nat.add_comm 1]
    · have hsplit : word = 2 * (word / 2) := by omega
      rw [ih _ (by omega)]
      conv_rhs => rw [hsplit, Nat.bitIndices_two_mul]
      simp [Function.comp_def, Nat.add_assoc, Nat.add_comm 1]

/-- The loop over the words, least significant first, hands out the set bits of the whole
number in increasing order. -/
theorem forEachWords_digits {wordSize : ℕ} (hw : 0 < wordSize) (n wordIdx : ℕ) :
    forEachWords wordSize wordIdx (Nat.digits (2 ^ (wordSize * 8)) n) =
      n.bitIndices.map (· + wordIdx * wordSize * 8) := by
  induction n using Nat.strong_induction_on generalizing wordIdx with
  | _ n ih =>
    rcases Nat.eq_zero_or_pos n with rfl | hn
    · simp [forEachWords]
    · have hbase : 1 < 2 ^ (wordSize * 8) := Nat.one_lt_two_pow (by omega)
      have hlt : n / 2 ^ (wordSize * 8) < n := Nat.div_lt_self hn hbase
      rw [Nat.digits_def' hbase hn, forEachWords, forEachBit_eq, ih _ hlt]
      conv_rhs =>
        rw [← Nat.mod_add_div n (2 ^ (wordSize * 8)),
          bitIndices_add_two_pow_mul _ _ (Nat.mod_lt n (by positivity))]
      simp [Function.comp_def, Nat.add_mul, Nat.add_assoc, Nat.add_comm]

/-- **`ForEach` hands out the set bits of the bitmap, in increasing order**, for a word of any
positive number of bytes. -/
theorem forEach_eq (r : AllocationBitmap) {wordSize : ℕ} (hw : 0 < wordSize) :
    r.forEach wordSize = r.allocated.bitIndices := by
  simp [forEach, forEachWords_digits hw]

/-! ## The strategies -/

/-- **What `AllocateBit` returns on a consistent bitmap**: with either strategy and any random
draw, a free offset of the range, or `(0, false)` exactly when the range is full. -/
theorem Consistent.allocateBit_spec {r : AllocationBitmap} (h : r.Consistent) (rnd : ℕ) :
    (∀ o, allocateBit r.strategy rnd r.allocated r.max r.count = (o, true) →
        o < r.max ∧ r.has o = false) ∧
      ((allocateBit r.strategy rnd r.allocated r.max r.count).2 = false ↔
        ∀ o < r.max, r.has o = true) := by
  rw [← h.full_iff]
  cases r.strategy with
  | randomScan =>
    simp only [allocateBit]
    split_ifs with hfull
    · simp [hfull]
    · split
      · rename_i a ha
        obtain ⟨hfree, hlt⟩ := Scan.find?_rotation_eq_some ha
        simp only [Prod.mk.injEq, and_true]
        exact ⟨fun o ho => ho ▸ ⟨hlt, by simpa [has] using hfree⟩, by simpa using hfull⟩
      · rename_i hnone
        have hall := Scan.find?_rotation_eq_none.mp hnone
        -- no free bit below `max` although `count < max`: impossible on a consistent bitmap
        exact absurd ((h.full_iff).mpr fun o ho => by simpa [has] using hall o ho) hfull
  | contiguousScan =>
    simp only [allocateBit]
    split_ifs with hfull
    · simp [hfull]
    · split
      · rename_i i hi
        have hfree := List.find?_some hi
        have hlt := List.mem_range.mp (List.mem_of_find?_eq_some hi)
        simp only [Prod.mk.injEq, and_true]
        exact ⟨fun o ho => ho ▸ ⟨hlt, by simpa [has] using hfree⟩, by simpa using hfull⟩
      · rename_i hnone
        have hall := List.find?_eq_none.mp hnone
        exact absurd ((h.full_iff).mpr fun o ho => by
          simpa [has] using hall o (List.mem_range.mpr ho)) hfull

theorem Consistent.allocateNext {r : AllocationBitmap} (h : r.Consistent) (rnd : ℕ) :
    (r.allocateNext rnd).2.Consistent := by
  unfold AllocationBitmap.allocateNext
  split
  · rename_i next hnext
    obtain ⟨hlt, hfree⟩ := (h.allocateBit_spec rnd).1 next hnext
    refine ⟨?_, h.bits_below.setBit_true hlt⟩
    simp only [popcount_setBit_true (by simpa [has] using hfree), h.count_eq]
    push_cast; rfl
  · exact h

/-! ## Reachable bitmaps -/

/-- The bitmaps a caller can produce: a new bitmap, then `Allocate` of offsets of the range,
`AllocateNext` with any random draw, `Release` of any offset, and `Restore` (under any range
name) of the snapshot of another such bitmap of the same size. -/
inductive Reachable : AllocationBitmap → Prop
  | new (strategy : Strategy) (max : ℕ) (rangeSpec : String) :
      Reachable (new strategy max rangeSpec)
  | allocate {r : AllocationBitmap} (offset : ℕ) :
      Reachable r → offset < r.max → Reachable (r.allocate offset).2
  | allocateNext {r : AllocationBitmap} (rnd : ℕ) :
      Reachable r → Reachable (r.allocateNext rnd).2
  | release {r : AllocationBitmap} (offset : ℕ) :
      Reachable r → Reachable (r.release offset)
  | restore {r r' : AllocationBitmap} (rangeSpec : String) :
      Reachable r → Reachable r' → r'.max = r.max →
        Reachable (r.afterRestore rangeSpec r'.snapshot.2)

theorem Reachable.consistent {r : AllocationBitmap} (h : Reachable r) : r.Consistent := by
  induction h with
  | new strategy max rangeSpec => exact consistent_new strategy max rangeSpec
  | allocate offset _ ho ih => exact ih.allocate ho
  | allocateNext rnd _ ih => exact ih.allocateNext rnd
  | release offset _ ih => exact ih.release offset
  | restore rangeSpec _ _ hmax ih ih' => exact ih.afterRestore ih' hmax rangeSpec

/-- **The allocation bitmap stays consistent.** On every bitmap reachable by in-range
`Allocate`, `AllocateNext`, `Release` and `Restore` of a snapshot of a bitmap of the same size,
`count` is the popcount of `allocated`, every set bit lies in `[0, max)` and `Free()` is not
negative; and `AllocateNext`, under either strategy and for every random draw, returns an offset
of the range that was free, or `ok = false` exactly when all `max` offsets are allocated. -/
theorem reachable_consistent_allocateNext {r : AllocationBitmap} (h : Reachable r) :
    r.count = popcount r.allocated ∧ BitsBelow r.allocated r.max ∧ 0 ≤ r.free ∧
      ∀ rnd, (∀ o, (r.allocateNext rnd).1 = (o, true) → o < r.max ∧ r.has o = false) ∧
        ((r.allocateNext rnd).1.2 = false ↔ ∀ o < r.max, r.has o = true) := by
  have hc := h.consistent
  refine ⟨hc.count_eq, hc.bits_below, hc.free_nonneg, fun rnd => ?_⟩
  obtain ⟨hsome, hnone⟩ := hc.allocateBit_spec rnd
  unfold allocateNext
  split
  · rename_i next hnext
    refine ⟨fun o ho => ?_, ?_⟩
    · obtain rfl : next = o := (Prod.mk.inj ho).1
      exact hsome next hnext
    · rw [← hnone, hnext]
  · rename_i b hb
    refine ⟨fun o ho => by simp at ho, ?_⟩
    rw [← hnone, hb]

/-- After `Allocate(0)` on a new contiguous bitmap of size two. -/
theorem allocate_zero_consistent_allocateNext :
    let r := ((new .contiguousScan 2 "").allocate 0).2
    r.count = popcount r.allocated ∧ BitsBelow r.allocated r.max ∧ 0 ≤ r.free ∧
      ∀ rnd, (∀ o, (r.allocateNext rnd).1 = (o, true) → o < r.max ∧ r.has o = false) ∧
        ((r.allocateNext rnd).1.2 = false ↔ ∀ o < r.max, r.has o = true) :=
  reachable_consistent_allocateNext (.allocate 0 (.new _ _ _) (by decide))

/-- **A snapshot restores the bitmap, and `ForEach` lists its offsets.** For every reachable
bitmap, restoring its snapshot into a new bitmap of the same size and range, under either
strategy, succeeds, and the restored bitmap answers `Has` and `Free` as the original and its
`ForEach` calls `fn` with the same offsets. `ForEach`, for a `big.Word` of any positive number
of bytes, calls `fn` once for each allocated offset, in increasing order, and for nothing else. -/
theorem reachable_snapshot_restore_forEach {r : AllocationBitmap} (h : Reachable r)
    (strategy : Strategy) {wordSize : ℕ} (hw : 0 < wordSize) :
    (∃ r', (new strategy r.max r.rangeSpec).restore r.snapshot.1 r.snapshot.2 = .ok r' ∧
      (∀ o, r'.has o = r.has o) ∧ r'.free = r.free ∧ r'.forEach wordSize = r.forEach wordSize) ∧
    (r.forEach wordSize).Pairwise (· < ·) ∧ ∀ o, o ∈ r.forEach wordSize ↔ r.has o = true := by
  have hc := h.consistent
  have hrestore : (new strategy r.max r.rangeSpec).restore r.snapshot.1 r.snapshot.2 =
      .ok { new strategy r.max r.rangeSpec with
        allocated := r.allocated, count := popcount r.allocated } := by
    simp [restore, snapshot, new, countBits_eq_popcount]
  refine ⟨⟨_, hrestore, fun o => rfl, ?_, rfl⟩, ?_, fun o => ?_⟩
  · simp [free, new, hc.count_eq]
  · rw [forEach_eq r hw]
    exact Nat.bitIndices_sorted.pairwise
  · rw [forEach_eq r hw, Nat.mem_bitIndices, has]

/-- After `Allocate(0)` on a new contiguous bitmap of size two, with eight-byte words. -/
theorem allocate_zero_snapshot_restore_forEach :
    let r := ((new .contiguousScan 2 "").allocate 0).2
    0 < 8 ∧
    (∃ r', (new .randomScan r.max r.rangeSpec).restore r.snapshot.1 r.snapshot.2 = .ok r' ∧
      (∀ o, r'.has o = r.has o) ∧ r'.free = r.free ∧ r'.forEach 8 = r.forEach 8) ∧
    (r.forEach 8).Pairwise (· < ·) ∧ ∀ o, o ∈ r.forEach 8 ↔ r.has o = true :=
  ⟨by decide, reachable_snapshot_restore_forEach (.allocate 0 (.new _ _ _) (by decide)) .randomScan
    (by decide)⟩

end AllocationBitmap

end Kubernetes.Allocator
