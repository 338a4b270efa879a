import Mathlib
import Kubernetes.Foundations.Bits

/-!
# Bit masks of NUMA nodes

`bitmask.bitMask` (`pkg/kubelet/cm/topologymanager/bitmask`) is a `uint64` whose bit `i` stands
for NUMA node `i`. The model is the number with its bound: every operation the topology, memory
and CPU managers use keeps it below `2 ^ 64` without wrapping, so `ℕ` computes as `uint64` does.
Bit numbers are Go `int`s, so `ℤ`: `Add` and `NewBitMask` refuse one outside `0..63`.

* `newBitMask bits` is the mask of exactly `bits` when they are all in range
  (`newBitMask_eq_some_iff`, `testBit_of_newBitMask`), and fails otherwise.
* `and` intersects (`testBit_and`), `count` is the number of set bits, zero only for the empty
  mask (`count_eq_zero`).
* `isNarrowerThan` compares by the number of bits, then by value: it is `<` on the pair
  (`isNarrowerThan_iff`).
* `getBits` lists the set bits, as many as `count` says (`count_eq_length_getBits`), and
  `IterateBitMasks` calls back with `NewBitMask` of every non-empty sublist of its bits and with
  nothing else (`mem_iterateBitMasks`).
-/

namespace Kubernetes.TopologyManager

/-- `bitMask`: a `uint64` whose bit `i` stands for NUMA node `i`. -/
structure BitMask where
  val : ℕ
  isLt : val < 2 ^ 64
  deriving DecidableEq

namespace BitMask

theorem ext {s m : BitMask} (h : s.val = m.val) : s = m := by
  cases s
  cases m
  congr

/-- `NewEmptyBitMask()`. -/
def empty : BitMask := ⟨0, by norm_num⟩

/-- `mask | 1 << uint64(i)`, for a bit number in range. -/
def setBit (mask : BitMask) (i : ℕ) (hi : i < 64) : BitMask :=
  ⟨mask.val ||| 2 ^ i, Nat.or_lt_two_pow mask.isLt (Nat.pow_lt_pow_right (by norm_num) hi)⟩

/-- `s.Add(bits...)`: set the bits, or fail, leaving `s` as it was, on a bit outside `0..63`. -/
def add (s : BitMask) (bits : List ℤ) : Option BitMask :=
  bits.foldlM (fun mask i => if h : i < 0 ∨ i ≥ 64 then none else some (mask.setBit i.toNat (by omega))) s

/-- `NewBitMask(bits...)`. -/
def newBitMask (bits : List ℤ) : Option BitMask := empty.add bits

/-- `s.And(masks...)`, and the package's `And(first, masks...)`, which copies `first` and calls it:
`s` with only the bits every mask has. -/
def and (s : BitMask) (masks : List BitMask) : BitMask :=
  masks.foldl (fun s m => ⟨s.val &&& m.val, Nat.and_lt_two_pow _ m.isLt⟩) s

/-- `s.Count()`: `bits.OnesCount64`. -/
def count (s : BitMask) : ℕ := Bitset.popcount s.val

/-- `s.IsNarrowerThan(mask)`: fewer bits set, or as many and a lower value. -/
def isNarrowerThan (s mask : BitMask) : Bool :=
  if s.count = mask.count ∧ s.val < mask.val then true else decide (s.count < mask.count)

/-- `s.IsSet(bit)`. -/
def isSet (s : BitMask) (bit : ℤ) : Bool :=
  if bit < 0 ∨ bit ≥ 64 then false else s.val.testBit bit.toNat

/-- `s.GetBits()`: the set bits, in increasing order. -/
def getBits (s : BitMask) : List ℤ :=
  ((List.range 64).filter fun i => s.val.testBit i).map Int.ofNat

/-- The recursion `iterate(bits, accum, size)` inside `IterateBitMasks`: the ways of extending
`accum` to `size` elements by elements of `bits` taken in order. Its loop over `bits[i:]` is
the recursion on the list; the rest of the loop does not check the size again, and needs not,
since `accum` has not changed. -/
def iterateBitMasks.iterate (size : ℕ) (accum : List ℤ) : List ℤ → List (List ℤ)
  | [] => if accum.length = size then [accum] else []
  | b :: bits =>
    if accum.length = size then [accum]
    else iterate size (accum ++ [b]) bits ++ iterate size accum bits

/-- The masks `IterateBitMasks(bits, callback)` calls back with, in order: those of one bit, then
of two, and so on up to `len(bits)`. `NewBitMask`'s error is ignored: a bit outside `0..63`
gives a `nil` mask (`none`). -/
def iterateBitMasks (bits : List ℤ) : List (Option BitMask) :=
  (List.range' 1 bits.length).flatMap fun size =>
    (iterateBitMasks.iterate size [] bits).map newBitMask

/-! ## What the operations do to each bit -/

theorem testBit_setBit (mask : BitMask) {i : ℕ} (hi : i < 64) (n : ℕ) :
    (mask.setBit i hi).val.testBit n = (mask.val.testBit n || decide (i = n)) := by
  simp [setBit, Nat.testBit_two_pow]

theorem testBit_ge (s : BitMask) {n : ℕ} (hn : 64 ≤ n) : s.val.testBit n = false :=
  Nat.testBit_lt_two_pow (lt_of_lt_of_le s.isLt (Nat.pow_le_pow_right (by norm_num) hn))

/-- `Add` succeeds exactly when every bit is in range, and then sets those bits. -/
theorem add_eq_some_iff (s : BitMask) (bits : List ℤ) (m : BitMask) :
    s.add bits = some m ↔
      (∀ i ∈ bits, 0 ≤ i ∧ i < 64) ∧ ∀ n, m.val.testBit n = (s.val.testBit n || decide ((n : ℤ) ∈ bits)) := by
  induction bits generalizing s with
  | nil =>
    simp only [add, List.foldlM_nil, Option.pure_def, Option.some.injEq, List.not_mem_nil,
      decide_false, Bool.or_false]
    constructor
    · rintro rfl
      exact ⟨fun _ h => h.elim, fun _ => rfl⟩
    · rintro ⟨-, h⟩
      exact ext (Nat.eq_of_testBit_eq fun n => (h n).symm)
  | cons i bits ih =>
    unfold add at ih ⊢
    rw [List.foldlM_cons]
    by_cases hi : i < 0 ∨ i ≥ 64
    · rw [dif_pos hi]
      simp only [Option.bind_eq_bind, Option.bind_none, reduceCtorEq, false_iff, not_and]
      intro hall
      have := hall i List.mem_cons_self
      omega
    · rw [dif_neg hi]
      simp only [Option.bind_eq_bind, Option.bind_some]
      rw [ih]
      have hi' : 0 ≤ i ∧ i < 64 := by omega
      have hbit : ∀ n : ℕ, ((s.setBit i.toNat (by omega)).val.testBit n || decide ((n : ℤ) ∈ bits)) =
          (s.val.testBit n || decide ((n : ℤ) ∈ i :: bits)) := by
        intro n
        rw [testBit_setBit]
        by_cases hn : (n : ℤ) = i
        · simp [hn, show i.toNat = n by omega]
        · simp [hn, show i.toNat ≠ n by omega]
      constructor
      · rintro ⟨hall, hbits⟩
        refine ⟨fun j hj => (List.mem_cons.mp hj).elim (fun h => h ▸ hi') (hall j), fun n => ?_⟩
        rw [hbits, hbit]
      · rintro ⟨hall, hbits⟩
        refine ⟨fun j hj => hall j (List.mem_cons_of_mem _ hj), fun n => ?_⟩
        rw [hbits, hbit]

/-- The mask `NewBitMask` builds has exactly the given bits. -/
theorem testBit_of_newBitMask {bits : List ℤ} {m : BitMask} (h : newBitMask bits = some m)
    (n : ℕ) : m.val.testBit n = decide ((n : ℤ) ∈ bits) := by
  have := ((add_eq_some_iff empty bits m).mp h).2 n
  simpa [empty] using this

/-- `Add` fails exactly on a bit outside `0..63`. -/
theorem add_isSome_iff (s : BitMask) (bits : List ℤ) :
    (s.add bits).isSome ↔ ∀ i ∈ bits, 0 ≤ i ∧ i < 64 := by
  induction bits generalizing s with
  | nil => simp [add]
  | cons i bits ih =>
    unfold add at ih ⊢
    rw [List.foldlM_cons]
    by_cases hi : i < 0 ∨ i ≥ 64
    · rw [dif_pos hi]
      simp only [Option.bind_eq_bind, Option.bind_none, Option.isSome_none, Bool.false_eq_true,
        false_iff, not_forall]
      exact ⟨i, List.mem_cons_self, by omega⟩
    · rw [dif_neg hi]
      simp only [Option.bind_eq_bind, Option.bind_some, ih, List.forall_mem_cons]
      exact ⟨fun h => ⟨by omega, h⟩, fun h => h.2⟩

@[simp] theorem val_and (s : BitMask) (masks : List BitMask) :
    (s.and masks).val = masks.foldl (fun v m => v &&& m.val) s.val := by
  induction masks generalizing s with
  | nil => rfl
  | cons m masks ih => exact ih _

theorem testBit_and (s : BitMask) (masks : List BitMask) (n : ℕ) :
    (s.and masks).val.testBit n = (s.val.testBit n && masks.all fun m => m.val.testBit n) := by
  induction masks generalizing s with
  | nil => simp [and]
  | cons m masks ih =>
    rw [BitMask.and, List.foldl_cons]
    have := ih ⟨s.val &&& m.val, Nat.and_lt_two_pow _ m.isLt⟩
    rw [BitMask.and] at this
    rw [this]
    simp [Bool.and_assoc]

theorem count_eq_zero (s : BitMask) : s.count = 0 ↔ s.val = 0 := Bitset.popcount_eq_zero

theorem isNarrowerThan_iff (s mask : BitMask) :
    s.isNarrowerThan mask = true ↔
      s.count < mask.count ∨ (s.count = mask.count ∧ s.val < mask.val) := by
  unfold isNarrowerThan
  split
  · rename_i h
    simp [h]
  · rename_i h
    simp only [decide_eq_true_eq]
    constructor
    · exact .inl
    · rintro (h' | h')
      · exact h'
      · exact absurd h' h

/-! ## The set bits, and the masks `IterateBitMasks` calls back with -/

theorem mem_getBits {s : BitMask} {b : ℤ} :
    b ∈ s.getBits ↔ 0 ≤ b ∧ b < 64 ∧ s.val.testBit b.toNat = true := by
  unfold getBits
  simp only [List.mem_map, List.mem_filter, List.mem_range, Int.ofNat_eq_natCast]
  constructor
  · rintro ⟨i, ⟨hi, htest⟩, rfl⟩
    exact ⟨by omega, by omega, by simpa using htest⟩
  · rintro ⟨h0, h64, htest⟩
    exact ⟨b.toNat, ⟨by omega, htest⟩, by omega⟩

theorem isSet_eq_true {s : BitMask} {b : ℤ} : s.isSet b = true ↔ b ∈ s.getBits := by
  rw [mem_getBits]
  unfold isSet
  split
  · simp only [Bool.false_eq_true, false_iff]
    omega
  · constructor
    · intro h
      exact ⟨by omega, by omega, h⟩
    · exact fun h => h.2.2

theorem getBits_nodup (s : BitMask) : s.getBits.Nodup :=
  (List.nodup_range.filter _).map fun _ _ h => Int.ofNat.inj h

theorem count_eq_length_getBits (s : BitMask) : s.count = s.getBits.length := by
  have hbits : Bitset.bits s.val = ((List.range 64).filter fun i => s.val.testBit i).toFinset := by
    ext i
    simp only [Bitset.mem_bits, List.mem_toFinset, List.mem_filter, List.mem_range]
    constructor
    · intro h
      refine ⟨?_, h⟩
      by_contra hi
      rw [testBit_ge s (by omega)] at h
      exact Bool.false_ne_true h
    · exact fun h => h.2
  rw [count, Bitset.popcount_eq_card, hbits,
    List.toFinset_card_of_nodup (List.nodup_range.filter _),
    getBits, List.length_map]

/-- A mask has at least as many bits as any set of its bits. -/
theorem card_le_count (s : BitMask) {T : Finset ℤ} (hT : ∀ b ∈ T, b ∈ s.getBits) :
    T.card ≤ s.count := by
  rw [count_eq_length_getBits, ← List.toFinset_card_of_nodup s.getBits_nodup]
  exact Finset.card_le_card fun b hb => List.mem_toFinset.mpr (hT b hb)

theorem mem_getBits_of_newBitMask {bits : List ℤ} {m : BitMask} (h : newBitMask bits = some m)
    {b : ℤ} : b ∈ m.getBits ↔ b ∈ bits := by
  have hrange := ((add_eq_some_iff empty bits m).mp h).1
  rw [mem_getBits, testBit_of_newBitMask h]
  constructor
  · rintro ⟨h0, -, hb⟩
    simpa [Int.toNat_of_nonneg h0] using hb
  · intro hb
    obtain ⟨h0, h64⟩ := hrange b hb
    exact ⟨h0, h64, by simpa [Int.toNat_of_nonneg h0] using hb⟩

/-- The mask of distinct bits has as many bits set as there are of them. -/
theorem count_of_newBitMask {bits : List ℤ} {m : BitMask} (h : newBitMask bits = some m)
    (hnodup : bits.Nodup) : m.count = bits.length := by
  rw [count_eq_length_getBits]
  exact ((List.perm_ext_iff_of_nodup m.getBits_nodup hnodup).mpr
    fun _ => mem_getBits_of_newBitMask h).length_eq

/-- `iterate(bits, accum, size)` lists the ways of completing `accum` to `size` elements by a
sublist of `bits`. -/
theorem mem_iterate {size : ℕ} {x : List ℤ} (bits : List ℤ) :
    ∀ {accum : List ℤ}, accum.length ≤ size →
      (x ∈ iterateBitMasks.iterate size accum bits ↔
        ∃ l, l.Sublist bits ∧ x = accum ++ l ∧ x.length = size) := by
  induction bits with
  | nil =>
    intro accum _
    simp only [iterateBitMasks.iterate, List.sublist_nil, exists_eq_left, List.append_nil]
    split_ifs with hsize
    · simp only [List.mem_singleton]
      constructor
      · rintro rfl
        exact ⟨rfl, hsize⟩
      · exact fun h => h.1
    · simp only [List.not_mem_nil, false_iff, not_and]
      rintro rfl
      exact hsize
  | cons b bits ih =>
    intro accum hle
    unfold iterateBitMasks.iterate
    split_ifs with hsize
    · -- the accumulator is full: only the empty completion fits
      simp only [List.mem_singleton]
      constructor
      · rintro rfl
        exact ⟨[], List.nil_sublist _, by simp, hsize⟩
      · rintro ⟨l, -, rfl, hlen⟩
        simp only [List.length_append] at hlen
        simp [List.length_eq_zero_iff.mp (by omega : l.length = 0)]
    · -- take `b` into the accumulator, or leave it
      rw [List.mem_append, ih (by simp; omega), ih hle]
      constructor
      · rintro (⟨l, hl, rfl, hlen⟩ | ⟨l, hl, rfl, hlen⟩)
        · exact ⟨b :: l, hl.cons_cons b, by simp, by simpa using hlen⟩
        · exact ⟨l, hl.cons b, rfl, hlen⟩
      · rintro ⟨l, hl, rfl, hlen⟩
        cases hl with
        | cons _ hl => exact .inr ⟨l, hl, rfl, hlen⟩
        | cons_cons _ hl => exact .inl ⟨_, hl, by simp, by simpa using hlen⟩

/-- **`IterateBitMasks` calls back with the mask of every non-empty sublist of its bits**, and
with nothing else (`none` where `NewBitMask` fails). -/
theorem mem_iterateBitMasks {bits : List ℤ} {x : Option BitMask} :
    x ∈ iterateBitMasks bits ↔ ∃ l, l.Sublist bits ∧ l ≠ [] ∧ x = newBitMask l := by
  unfold iterateBitMasks
  simp only [List.mem_flatMap, List.mem_range'_1, List.mem_map]
  constructor
  · rintro ⟨size, hsize, l, hl, rfl⟩
    obtain ⟨l', hl', hx, hlen⟩ := (mem_iterate bits (by simp)).mp hl
    rw [List.nil_append] at hx
    subst hx
    refine ⟨l, hl', ?_, rfl⟩
    rintro rfl
    simp at hlen
    omega
  · rintro ⟨l, hl, hne, rfl⟩
    have hlen := hl.length_le
    have hpos := List.length_pos_iff.mpr hne
    exact ⟨l.length, by omega, l, (mem_iterate bits (by simp)).mpr ⟨l, hl, rfl, rfl⟩, rfl⟩

/-! ## Masks read through their bits -/

theorem testBit_eq_decide_mem_getBits (s : BitMask) (n : ℕ) :
    s.val.testBit n = decide ((n : ℤ) ∈ s.getBits) := by
  rw [Bool.eq_iff_iff, decide_eq_true_iff, mem_getBits, Int.toNat_natCast]
  by_cases hn : n < 64
  · simp [hn]
  · rw [testBit_ge s (by omega)]
    simp only [Bool.false_eq_true, false_iff, not_and]
    intro _ h
    omega

theorem ext_getBits {s m : BitMask} (h : ∀ b, b ∈ s.getBits ↔ b ∈ m.getBits) : s = m :=
  ext (Nat.eq_of_testBit_eq fun n => by
    rw [testBit_eq_decide_mem_getBits, testBit_eq_decide_mem_getBits]
    exact decide_eq_decide.mpr (h n))

theorem getBits_eq_singleton_iff {m : BitMask} {k : ℤ} :
    m.getBits = [k] ↔ ∀ b, b ∈ m.getBits ↔ b = k := by
  constructor
  · intro h b
    rw [h, List.mem_singleton]
  · intro h
    exact List.perm_singleton.mp ((List.perm_ext_iff_of_nodup m.getBits_nodup
      (List.nodup_singleton k)).mpr fun b => by rw [h b, List.mem_singleton])

theorem mem_getBits_and (s : BitMask) (masks : List BitMask) (b : ℤ) :
    b ∈ (s.and masks).getBits ↔ b ∈ s.getBits ∧ ∀ m ∈ masks, b ∈ m.getBits := by
  simp only [mem_getBits, testBit_and, Bool.and_eq_true, List.all_eq_true]
  constructor
  · rintro ⟨h0, h64, hs, hall⟩
    exact ⟨⟨h0, h64, hs⟩, fun m hm => ⟨h0, h64, hall m hm⟩⟩
  · rintro ⟨⟨h0, h64, hs⟩, hall⟩
    exact ⟨h0, h64, hs, fun m hm => (hall m hm).2.2⟩

/-- The mask of the one bit `k` is the mask whose bits are `[k]`. -/
theorem newBitMask_singleton {k : ℤ} {m : BitMask} :
    newBitMask [k] = some m ↔ m.getBits = [k] := by
  constructor
  · intro h
    exact getBits_eq_singleton_iff.mpr fun b => by
      rw [mem_getBits_of_newBitMask h, List.mem_singleton]
  · intro h
    have hk : 0 ≤ k ∧ k < 64 := by
      obtain ⟨h0, h64, -⟩ := mem_getBits.mp (h ▸ List.mem_singleton_self k)
      exact ⟨h0, h64⟩
    refine (add_eq_some_iff empty [k] m).mpr
      ⟨fun i hi => List.mem_singleton.mp hi ▸ hk, fun n => ?_⟩
    rw [testBit_eq_decide_mem_getBits, h]
    simp [empty]

theorem count_eq_one_iff {m : BitMask} : m.count = 1 ↔ ∃ k, m.getBits = [k] := by
  rw [count_eq_length_getBits, List.length_eq_one_iff]

theorem val_of_getBits_singleton {m : BitMask} {k : ℤ} (h : m.getBits = [k]) :
    m.val = 2 ^ k.toNat := by
  have hk : 0 ≤ k := (mem_getBits.mp (h ▸ List.mem_singleton_self k)).1
  refine Nat.eq_of_testBit_eq fun n => ?_
  rw [testBit_eq_decide_mem_getBits, h, Nat.testBit_two_pow]
  simp only [List.mem_singleton, decide_eq_decide]
  omega

end BitMask

end Kubernetes.TopologyManager
