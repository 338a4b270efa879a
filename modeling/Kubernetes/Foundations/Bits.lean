import Mathlib

/-!
# Natural numbers as sets of bits

An arbitrary-precision non-negative integer used as a bitmap: bit `i` is set when
`x.testBit i`. The bitmap allocators and the NUMA masks of the development rest on it.

* `setBit x i b` sets (`b = true`) or clears (`b = false`) bit `i`; `testBit_setBit` says
  what it does to every bit.
* `bits x` is the finite set of set bits and `popcount x` its size (`popcount_eq_card`);
  setting a clear bit adds one (`popcount_setBit_true`), clearing a set bit removes one
  (`popcount_setBit_false`); it is zero only for zero (`popcount_eq_zero`), and a number whose
  bits are among those of another has fewer of them unless the two are equal
  (`popcount_lt_of_testBit_imp`).
* A number below `2 ^ k` plus a multiple `2 ^ k * q` has the set bits of the first, then those of
  `q` moved up by `k` (`bitIndices_add_two_pow_mul`): a bitmap read word by word, least
  significant word first, lists its bits in increasing order.
* `bytes x` is the big-endian byte string of `x` with no leading zero byte, `setBytes` reads
  one back (`setBytes_bytes`), and `countBits` adds up the bits byte by byte; it is the
  popcount (`countBits_eq_popcount`).
* Below a bound `n` (`BitsBelow x n`), the popcount is at most `n`, and it is `n` exactly
  when all of `0, …, n - 1` are set (`popcount_eq_iff_all`).
* A multiple of `2 ^ k` and a number below `2 ^ k` combine by `|||` as by `+`
  (`or_eq_add_of_mod_eq_zero`).
-/

namespace Bitset

/-- `x` with bit `i` set to `b`. -/
def setBit (x i : ℕ) : Bool → ℕ
  | true => x ||| 2 ^ i
  | false => x ^^^ (x &&& 2 ^ i)

/-- The set bits of `x`. -/
def bits (x : ℕ) : Finset ℕ := x.bitIndices.toFinset

/-- The number of set bits of `x`. -/
def popcount (x : ℕ) : ℕ := x.bitIndices.length

@[simp] theorem testBit_setBit (x i j : ℕ) (b : Bool) :
    (setBit x i b).testBit j = if i = j then b else x.testBit j := by
  cases b <;> by_cases h : i = j <;> simp [setBit, h]

@[simp] theorem mem_bits {x i : ℕ} : i ∈ bits x ↔ x.testBit i = true := by
  simp [bits]

theorem popcount_eq_card (x : ℕ) : popcount x = (bits x).card :=
  (List.toFinset_card_of_nodup Nat.bitIndices_nodup).symm

@[simp] theorem bits_zero : bits 0 = ∅ := by simp [bits]

@[simp] theorem popcount_zero : popcount 0 = 0 := by simp [popcount]

theorem popcount_eq_zero {x : ℕ} : popcount x = 0 ↔ x = 0 := by
  unfold popcount
  rw [List.length_eq_zero_iff]
  constructor
  · intro h
    rw [← Nat.sum_map_two_pow_bitIndices x, h]
    rfl
  · rintro rfl
    exact Nat.bitIndices_zero

/-- A number whose bits are among those of `y` has no more bits set, and fewer unless it is `y`. -/
theorem popcount_le_of_testBit_imp {x y : ℕ} (hsub : ∀ i, x.testBit i = true → y.testBit i = true) :
    popcount x ≤ popcount y := by
  rw [popcount_eq_card, popcount_eq_card]
  exact Finset.card_le_card fun i hi => mem_bits.mpr (hsub i (mem_bits.mp hi))

theorem popcount_lt_of_testBit_imp {x y : ℕ} (hsub : ∀ i, x.testBit i = true → y.testBit i = true)
    (hne : x ≠ y) : popcount x < popcount y := by
  rw [popcount_eq_card, popcount_eq_card]
  refine Finset.card_lt_card ⟨fun i hi => mem_bits.mpr (hsub i (mem_bits.mp hi)), fun hsup => ?_⟩
  refine hne (Nat.eq_of_testBit_eq fun i => ?_)
  cases hx : x.testBit i
  · cases hy : y.testBit i
    · rfl
    · exact absurd (mem_bits.mp (hsup (mem_bits.mpr hy))) (by rw [hx]; exact Bool.false_ne_true)
  · exact (hsub i hx).symm

theorem bits_setBit_true (x i : ℕ) : bits (setBit x i true) = insert i (bits x) := by
  ext j
  by_cases h : i = j
  · subst h; simp
  · simp [h, Ne.symm h]

theorem bits_setBit_false (x i : ℕ) : bits (setBit x i false) = (bits x).erase i := by
  ext j
  by_cases h : i = j
  · subst h; simp
  · simp [h, Ne.symm h]

/-- Setting a clear bit adds one set bit. -/
theorem popcount_setBit_true {x i : ℕ} (h : x.testBit i = false) :
    popcount (setBit x i true) = popcount x + 1 := by
  have hi : i ∉ bits x := by simp [h]
  rw [popcount_eq_card, popcount_eq_card, bits_setBit_true, Finset.card_insert_of_notMem hi]

/-- Clearing a set bit removes one set bit. -/
theorem popcount_setBit_false {x i : ℕ} (h : x.testBit i = true) :
    popcount (setBit x i false) + 1 = popcount x := by
  have hi : i ∈ bits x := by simp [h]
  rw [popcount_eq_card, popcount_eq_card, bits_setBit_false, Finset.card_erase_add_one hi]

/-- Setting a bit that is already set changes nothing. -/
theorem setBit_true_of_testBit {x i : ℕ} (h : x.testBit i = true) : setBit x i true = x := by
  apply Nat.eq_of_testBit_eq
  intro j
  by_cases hj : i = j
  · subst hj; simp [h]
  · simp [hj]

/-- Clearing a bit that is already clear changes nothing. -/
theorem setBit_false_of_testBit {x i : ℕ} (h : x.testBit i = false) : setBit x i false = x := by
  apply Nat.eq_of_testBit_eq
  intro j
  by_cases hj : i = j
  · subst hj; simp [h]
  · simp [hj]

/-! ## Bitmaps below a bound -/

/-- Every set bit of `x` lies in `[0, n)`. -/
def BitsBelow (x n : ℕ) : Prop := ∀ i, x.testBit i = true → i < n

theorem bitsBelow_iff_subset {x n : ℕ} : BitsBelow x n ↔ bits x ⊆ Finset.range n := by
  simp [BitsBelow, Finset.subset_iff]

theorem bitsBelow_zero (n : ℕ) : BitsBelow 0 n := by
  simp [BitsBelow]

theorem BitsBelow.setBit_true {x n i : ℕ} (h : BitsBelow x n) (hi : i < n) :
    BitsBelow (setBit x i true) n := by
  intro j hj
  by_cases hij : i = j
  · exact hij ▸ hi
  · exact h j (by simpa [hij] using hj)

theorem BitsBelow.setBit_false {x n : ℕ} (h : BitsBelow x n) (i : ℕ) :
    BitsBelow (setBit x i false) n := by
  intro j hj
  by_cases hij : i = j
  · simp [hij] at hj
  · exact h j (by simpa [hij] using hj)

theorem BitsBelow.popcount_le {x n : ℕ} (h : BitsBelow x n) : popcount x ≤ n := by
  rw [popcount_eq_card]
  simpa using Finset.card_le_card (bitsBelow_iff_subset.mp h)

/-- **A bitmap below `n` has `n` set bits exactly when all of `[0, n)` are set.** -/
theorem BitsBelow.popcount_eq_iff_all {x n : ℕ} (h : BitsBelow x n) :
    popcount x = n ↔ ∀ i < n, x.testBit i = true := by
  have hsub := bitsBelow_iff_subset.mp h
  rw [popcount_eq_card]
  constructor
  · intro hcard i hi
    have heq : bits x = Finset.range n :=
      Finset.eq_of_subset_of_card_le hsub (by simp [hcard])
    have hmem : i ∈ bits x := by rw [heq]; exact Finset.mem_range.mpr hi
    simpa using hmem
  · intro hall
    have heq : bits x = Finset.range n :=
      Finset.Subset.antisymm hsub (fun i hi => by simpa using hall i (by simpa using hi))
    simp [heq]

/-! ## Aligned fields

A number whose low `k` bits are zero and a number below `2 ^ k` have no set bit in common:
their `|||` is their sum, and the sum stays below every power of two above `2 ^ k` that the first
one is below. Addresses of a network and of its sub-blocks are built this way. -/

theorem or_eq_add_of_mod_eq_zero {a b k : ℕ} (ha : a % 2 ^ k = 0) (hb : b < 2 ^ k) :
    a ||| b = a + b := by
  obtain ⟨q, rfl⟩ := Nat.dvd_of_mod_eq_zero ha
  exact (Nat.two_pow_add_eq_or_of_lt hb q).symm

/-- The aligned number `XOR` its sum with a small one gives the small one back. -/
theorem xor_add_of_mod_eq_zero {a b k : ℕ} (ha : a % 2 ^ k = 0) (hb : b < 2 ^ k) :
    a ^^^ (a + b) = b := by
  rw [← or_eq_add_of_mod_eq_zero ha hb]
  apply Nat.eq_of_testBit_eq
  intro j
  obtain ⟨q, rfl⟩ := Nat.dvd_of_mod_eq_zero ha
  rw [Nat.testBit_xor, Nat.testBit_or]
  by_cases hj : k ≤ j
  · have hbj : b.testBit j = false :=
      Nat.testBit_lt_two_pow (lt_of_lt_of_le hb (Nat.pow_le_pow_right (by decide) hj))
    simp [hbj]
  · have haj : (2 ^ k * q).testBit j = false := by
      rw [mul_comm, Nat.testBit_mul_two_pow]
      simp [hj]
    simp [haj]

theorem add_lt_two_pow_of_mod_eq_zero {a b k n : ℕ} (ha : a % 2 ^ k = 0) (han : a < 2 ^ n)
    (hkn : k ≤ n) (hb : b < 2 ^ k) : a + b < 2 ^ n := by
  obtain ⟨q, rfl⟩ := Nat.dvd_of_mod_eq_zero ha
  have hn : 2 ^ n = 2 ^ k * 2 ^ (n - k) := by rw [← pow_add, Nat.add_sub_cancel' hkn]
  have hq : q < 2 ^ (n - k) := by
    rw [hn] at han
    exact Nat.lt_of_mul_lt_mul_left han
  calc 2 ^ k * q + b < 2 ^ k * q + 2 ^ k := by omega
    _ = 2 ^ k * (q + 1) := by ring
    _ ≤ 2 ^ k * 2 ^ (n - k) := Nat.mul_le_mul_left _ hq
    _ = 2 ^ n := hn.symm

/-- Adding a number below `2 ^ j` to a multiple of `2 ^ j` keeps the bits from `j` on. -/
theorem add_div_two_pow_of_mod_eq_zero {a b j k : ℕ} (ha : a % 2 ^ j = 0) (hb : b < 2 ^ j)
    (hjk : j ≤ k) : (a + b) / 2 ^ k = a / 2 ^ k := by
  have hk : 2 ^ k = 2 ^ j * 2 ^ (k - j) := by rw [← pow_add, Nat.add_sub_cancel' hjk]
  have hj : (a + b) / 2 ^ j = a / 2 ^ j := by
    rw [Nat.add_div_of_dvd_right (Nat.dvd_of_mod_eq_zero ha), Nat.div_eq_of_lt hb, Nat.add_zero]
  rw [hk, ← Nat.div_div_eq_div_mul, ← Nat.div_div_eq_div_mul, hj]

/-- The numbers that agree with a multiple of `2 ^ k` from bit `k` on are the `2 ^ k` numbers
from it. -/
theorem div_two_pow_eq_iff {a x k : ℕ} (ha : a % 2 ^ k = 0) :
    x / 2 ^ k = a / 2 ^ k ↔ a ≤ x ∧ x < a + 2 ^ k := by
  constructor
  · intro hx
    have hlow : x / 2 ^ k * 2 ^ k ≤ x := Nat.div_mul_le_self x _
    have hhigh : x < 2 ^ k * (x / 2 ^ k + 1) := Nat.lt_mul_div_succ x (Nat.two_pow_pos k)
    have ha' : a = a / 2 ^ k * 2 ^ k := (Nat.div_mul_cancel (Nat.dvd_of_mod_eq_zero ha)).symm
    rw [hx] at hlow hhigh
    constructor <;> nlinarith
  · rintro ⟨hle, hlt⟩
    obtain ⟨d, rfl⟩ := Nat.exists_eq_add_of_le hle
    exact add_div_two_pow_of_mod_eq_zero ha (by omega) le_rfl

/-! ## Popcount through the bytes -/

/-- The set bits of a number below `2 ^ k` and of a multiple of `2 ^ k`, in increasing order. -/
theorem bitIndices_add_two_pow_mul {d : ℕ} (k q : ℕ) (hd : d < 2 ^ k) :
    (d + 2 ^ k * q).bitIndices = d.bitIndices ++ q.bitIndices.map (· + k) := by
  induction k generalizing d with
  | zero =>
    obtain rfl : d = 0 := by simpa using hd
    simp
  | succ k ih =>
    have hd' : d / 2 < 2 ^ k := by rw [pow_succ] at hd; omega
    rcases Nat.mod_two_eq_zero_or_one d with h | h
    · have hsplit : d + 2 ^ (k + 1) * q = 2 * (d / 2 + 2 ^ k * q) := by rw [pow_succ]; ring_nf; omega
      have hd2 : d = 2 * (d / 2) := by omega
      rw [hsplit, Nat.bitIndices_two_mul, ih hd']
      conv_rhs => rw [hd2, Nat.bitIndices_two_mul]
      simp [Function.comp_def, add_assoc]
    · have hsplit : d + 2 ^ (k + 1) * q = 2 * (d / 2 + 2 ^ k * q) + 1 := by
        rw [pow_succ]; ring_nf; omega
      have hd2 : d = 2 * (d / 2) + 1 := by omega
      rw [hsplit, Nat.bitIndices_two_mul_add_one, ih hd']
      conv_rhs => rw [hd2, Nat.bitIndices_two_mul_add_one]
      simp [Function.comp_def, add_assoc]

/-- The bits of a number below `2 ^ k` and of a multiple of `2 ^ k` add up. -/
theorem popcount_add_two_pow_mul {d : ℕ} (k q : ℕ) (hd : d < 2 ^ k) :
    popcount (d + 2 ^ k * q) = popcount d + popcount q := by
  simp only [popcount, bitIndices_add_two_pow_mul k q hd, List.length_append, List.length_map]

/-- The big-endian bytes of `x`, with no leading zero byte (`big.Int.Bytes`). -/
def bytes (x : ℕ) : List ℕ := (Nat.digits 256 x).reverse

/-- The number whose big-endian bytes are `bs` (`big.Int.SetBytes`). -/
def setBytes (bs : List ℕ) : ℕ := Nat.ofDigits 256 bs.reverse

@[simp] theorem setBytes_bytes (x : ℕ) : setBytes (bytes x) = x := by
  simp [setBytes, bytes, Nat.ofDigits_digits]

theorem lt_of_mem_bytes {x b : ℕ} (h : b ∈ bytes x) : b < 256 :=
  Nat.digits_lt_base (by norm_num) (by simpa [bytes] using h)

/-- The number of set bits, counted byte by byte (`countBits`, `bits.OnesCount8` on each
byte). -/
def countBits (x : ℕ) : ℕ := ((bytes x).map popcount).sum

theorem sum_popcount_digits (x : ℕ) : ((Nat.digits 256 x).map popcount).sum = popcount x := by
  induction x using Nat.strong_induction_on with
  | _ x ih =>
    rcases Nat.eq_zero_or_pos x with rfl | hx
    · simp
    · rw [Nat.digits_def' (by norm_num) hx, List.map_cons, List.sum_cons,
        ih _ (Nat.div_lt_self hx (by norm_num))]
      have h := popcount_add_two_pow_mul 8 (x / 256) (Nat.mod_lt x (by norm_num : 0 < 2 ^ 8))
      rw [show (2 : ℕ) ^ 8 = 256 by norm_num, Nat.mod_add_div] at h
      exact h.symm

/-- **Counting the bits byte by byte gives the popcount.** -/
theorem countBits_eq_popcount (x : ℕ) : countBits x = popcount x := by
  rw [countBits, bytes, List.map_reverse, List.sum_reverse, sum_popcount_digits]

end Bitset
