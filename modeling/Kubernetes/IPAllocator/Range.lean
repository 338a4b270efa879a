import Mathlib
import Kubernetes.Foundations.GoStd
import Kubernetes.Allocator.Bitmap

/-!
# The service IP range

`Range` (`pkg/registry/core/service/ipallocator/allocator.go`) hands out the addresses of a
service CIDR through an allocation bitmap: offset `o` is the address `base + o`, where `base` is
the CIDR's network address plus one. The CIDR's network address is never handed out, nor an IPv4
CIDR's broadcast address, and an IPv6 range is cut to `65536` addresses. Addresses are compared
as the numbers their sixteen-byte forms spell (`utilnet.BigForIP`).

* `Parsed.contains_iff`: for a CIDR as `net.ParseCIDR` returns it with at most 64 host bits,
  `contains(ip)` returns `(true, o)` exactly when `o` is an offset of the range and `ip` is
  `base + o`; that address is `GetIndexedIP(cidr, o + 1)`, which `ForEach` reports; and the network
  address and an IPv4 broadcast address are not in the range.
* `contains` computes the offset with `big.Int.Int64`, which keeps the low 64 bits of the
  difference. With more host bits an address `2 ^ 64` above `base + o` reads as offset `o`
  (`newCIDRRange_contains_alias`).
-/

namespace Kubernetes.IPAllocator

open Net Allocator Bitset

/-- `utilnet.BigForIP`: the address's sixteen-byte form (`To16`) as a number; an IPv4 address is
written `::ffff:a.b.c.d`. -/
def bigForIP (ip : IP) : ℕ :=
  match ip.family with
  | .v4 => 0xffff * 2 ^ 32 + ip.addr
  | .v6 => ip.addr

/-- `utilnet.AddIPOffset`: the last sixteen bytes of `base + offset` (`Bytes` writes the
absolute value). -/
def addIPOffset (base offset : ℤ) : IP := IP.ofNat .v6 (base + offset).natAbs

/-- `utilnet.RangeSize`: the number of addresses of the subnet, `math.MaxInt64` when that
overflows an `int64`, and `0` for an IPv4 mask of at most one bit and an IPv6 mask of at most
one bit. -/
def rangeSize (subnet : IPNet) : ℤ :=
  let ones := (IPMask.size subnet.mask).1
  let bits := (IPMask.size subnet.mask).2
  if bits = 32 ∧ bits - ones ≥ 31 ∨ bits = 128 ∧ bits - ones ≥ 127 then 0
  else if bits - ones ≥ 63 then 2 ^ 63 - 1
  else 2 ^ (bits - ones)

/-- `utilnet.GetIndexedIP`: the address `index` above the subnet's, when the subnet holds it. -/
def getIndexedIP (subnet : IPNet) (index : ℤ) : Option IP :=
  let ip := addIPOffset (bigForIP subnet.ip) index
  if subnet.contains (some ip) then some ip else none

/-- `utilnet.IsIPv6CIDR`. -/
def isIPv6CIDR (cidr : IPNet) : Bool := cidr.ip.to4.isNone

/-- `calculateIPOffset`: the difference from `base`, read back with `big.Int.Int64`, which keeps
the low 64 bits of the absolute value and negates them for a negative difference; that is the
difference wrapped to an `int64`. -/
def calculateIPOffset (base : ℤ) (ip : IP) : ℤ := Go.toInt64 (bigForIP ip - base)

/-- The errors of the range: `ErrFull`, `ErrAllocated` and `ErrNotInRange`, which names the
range's CIDR. -/
inductive RangeError
  | full
  | allocated
  | notInRange (validRange : IPNet)
  deriving DecidableEq

/-- `Range` over the in-memory bitmap `NewCIDRRange` gives it. -/
structure Range where
  net : IPNet
  base : ℤ
  max : ℕ
  alloc : AllocationBitmap

namespace Range

/-- `NewCIDRRange(cidr)`; `rangeSpec` is `cidr.String()`. -/
def newCIDRRange (cidr : IPNet) (rangeSpec : String) : Range :=
  let max := rangeSize cidr
  let base := (bigForIP cidr.ip : ℤ)
  -- an IPv6 bitmap is kept to `65536` bits; an IPv4 range drops its broadcast address
  let max := if isIPv6CIDR cidr then (if max > 65536 then 65536 else max) else max - 1
  -- and every range drops the network address
  let base := base + 1
  let max := (max - 1 : ℤ)
  let max := (if 0 > max then 0 else max).toNat
  { net := cidr, base, max, alloc := AllocationBitmap.new .randomScan max rangeSpec }

/-- `contains(ip)`: whether the address is in the range, and its offset. -/
def contains (r : Range) (ip : IP) : Bool × ℤ :=
  if !r.net.contains (some ip) then (false, 0)
  else
    let offset := calculateIPOffset r.base ip
    if offset < 0 ∨ offset ≥ r.max then (false, 0) else (true, offset)

/-- `Allocate(ip)`. -/
def allocate (r : Range) (ip : IP) : Except RangeError Unit × Range :=
  let (ok, offset) := r.contains ip
  if !ok then (.error (.notInRange r.net), r)
  else
    let (allocated, alloc) := r.alloc.allocate offset.toNat
    if !allocated then (.error .allocated, { r with alloc }) else (.ok (), { r with alloc })

/-- `AllocateNext()`, with the bitmap's random draw. -/
def allocateNext (r : Range) (rnd : ℕ) : Except RangeError IP × Range :=
  match r.alloc.allocateNext rnd with
  | ((offset, true), alloc) => (.ok (addIPOffset r.base offset), { r with alloc })
  | ((_, false), alloc) => (.error .full, { r with alloc })

/-- `Release(ip)`: an address outside the range is ignored. -/
def release (r : Range) (ip : IP) : Range :=
  let (ok, offset) := r.contains ip
  if !ok then r else { r with alloc := r.alloc.release offset.toNat }

/-- `Has(ip)`. -/
def has (r : Range) (ip : IP) : Bool :=
  let (ok, offset) := r.contains ip
  ok && r.alloc.has offset.toNat

/-- `ForEach(fn)`: the addresses it calls `fn` with, in order; `GetIndexedIP`'s error is dropped
and `fn` gets `nil`. -/
def forEach (r : Range) (wordSize : ℕ) : List (Option IP) :=
  (r.alloc.forEach wordSize).map fun offset => getIndexedIP r.net (offset + 1)

end Range

/-! ## Addresses as numbers -/

/-- An address's shortest form (`To4` when it has one): an IPv4 address, or an IPv6 address
outside `::ffff:0:0/96`, with the same sixteen-byte form. -/
theorem bigForIP_shortest (ip : IP) :
    let a := ip.to4.getD ip
    a.family = .v4 ∧ bigForIP ip = 0xffff * 2 ^ 32 + a.addr ∧ a.addr < 2 ^ 32 ∨
      a.family = .v6 ∧ bigForIP ip = a.addr ∧ a.addr / 2 ^ 32 ≠ 0xffff := by
  intro a
  have hlt := a.addr_lt
  cases hf : ip.family with
  | v4 =>
    have ha : a = ip := by simp [a, IP.to4, hf]
    rw [ha] at hlt ⊢
    rw [hf] at hlt
    exact Or.inl ⟨hf, by simp [bigForIP, hf], hlt⟩
  | v6 =>
    have h4 : ip.to4 = if ip.addr / 2 ^ 32 = 0xffff then some (IP.ofNat .v4 ip.addr) else none := by
      unfold IP.to4
      rw [hf]
    by_cases hm : ip.addr / 2 ^ 32 = 0xffff
    · have ha : a = IP.ofNat .v4 ip.addr := by
        show ip.to4.getD ip = _
        rw [h4, if_pos hm]
        rfl
      rw [ha] at hlt ⊢
      have hsplit := Nat.div_add_mod ip.addr (2 ^ 32)
      refine Or.inl ⟨rfl, ?_, hlt⟩
      simp only [bigForIP, hf, IP.ofNat_addr, Family.bits_v4]
      omega
    · have ha : a = ip := by
        show ip.to4.getD ip = _
        rw [h4, if_neg hm]
        rfl
      rw [ha]
      exact Or.inr ⟨hf, by simp [bigForIP, hf], hm⟩

section Parsed

variable {n : IPNet} (hp : n.Parsed) (hmapped : n.ip.family = .v6 → n.ip.to4 = none)
  {m : IPMask} (hm : n.mask = some m)
include hp hmapped hm

/-- The addresses of a network lie in the `2 ^ h` numbers from its own, `h` its host bits. -/
theorem bigForIP_of_contains {ip : IP} (hc : n.contains (some ip) = true) :
    bigForIP n.ip ≤ bigForIP ip ∧
      bigForIP ip < bigForIP n.ip + 2 ^ (n.ip.family.bits - m.ones) := by
  obtain ⟨hfam, hpre⟩ := (hp.contains_iff hmapped hm ip).mp hc
  obtain ⟨hle, hlt⟩ := (div_two_pow_eq_iff (hp.host_zero m hm)).mp hpre
  rcases bigForIP_shortest ip with ⟨ha, hbig, -⟩ | ⟨ha, hbig, -⟩
  · have hB : bigForIP n.ip = 0xffff * 2 ^ 32 + n.ip.addr := by simp [bigForIP, ← hfam, ha]
    rw [hbig, hB]
    omega
  · have hB : bigForIP n.ip = n.ip.addr := by simp [bigForIP, ← hfam, ha]
    rw [hbig, hB]
    omega

/-- A number less than `2 ^ h` and `2 ^ 32` above the network's address is an address of the
network, however it is written. -/
theorem contains_of_bigForIP {ip : IP} {y : ℕ} (hx : bigForIP ip = bigForIP n.ip + y)
    (hy : y < 2 ^ (n.ip.family.bits - m.ones)) (hy32 : y < 2 ^ 32) :
    n.contains (some ip) = true := by
  have hA := hp.host_zero m hm
  have hAlt := n.ip.addr_lt
  rw [hp.contains_iff hmapped hm ip]
  cases hf : n.ip.family with
  | v4 =>
    rw [hf] at hA hAlt hy
    have hsum : n.ip.addr + y < 2 ^ 32 :=
      add_lt_two_pow_of_mod_eq_zero hA hAlt (by simp) hy
    have hB : bigForIP n.ip = 0xffff * 2 ^ 32 + n.ip.addr := by simp [bigForIP, hf]
    rw [hB] at hx
    rcases bigForIP_shortest ip with ⟨ha, hbig, -⟩ | ⟨ha, hbig, hne⟩
    · have haddr : (ip.to4.getD ip).addr = n.ip.addr + y := by omega
      refine ⟨ha, ?_⟩
      rw [haddr, Family.bits_v4]
      exact add_div_two_pow_of_mod_eq_zero hA hy le_rfl
    · exact absurd (by omega) hne
  | v6 =>
    rw [hf] at hA hAlt hy
    have hB : bigForIP n.ip = n.ip.addr := by simp [bigForIP, hf]
    rw [hB] at hx
    rcases bigForIP_shortest ip with ⟨ha, hbig, hlt⟩ | ⟨ha, hbig, -⟩
    · -- the network's address is not in `::ffff:0:0/96`, nor are the `y` above it
      have hne : n.ip.addr / 2 ^ 32 ≠ 0xffff := by
        have h4 := hmapped hf
        simp only [IP.to4, hf] at h4
        split_ifs at h4 with h
        exact h
      have hmin : n.ip.addr % 2 ^ min (128 - m.ones) 32 = 0 :=
        Nat.mod_eq_zero_of_dvd ((Nat.pow_dvd_pow 2 (min_le_left _ _)).trans
          (Nat.dvd_of_mod_eq_zero hA))
      have hymin : y < 2 ^ min (128 - m.ones) 32 := by
        rcases min_cases (128 - m.ones) 32 with ⟨h, -⟩ | ⟨h, -⟩ <;> rw [h] <;> assumption
      have hsame := add_div_two_pow_of_mod_eq_zero hmin hymin (min_le_right _ _)
      exact absurd (by omega) hne
    · have haddr : (ip.to4.getD ip).addr = n.ip.addr + y := by omega
      refine ⟨ha, ?_⟩
      rw [haddr, Family.bits_v6]
      exact add_div_two_pow_of_mod_eq_zero hA hy le_rfl

omit hmapped in
theorem size_mask_of_parsed : IPMask.size n.mask = (m.ones, n.ip.family.bits) := by
  obtain ⟨m', hm', hf⟩ := hp.mask_family
  rw [hm, Option.some.injEq] at hm'
  subst hm'
  simp [IPMask.size, hm, hf]

omit hmapped in
/-- `RangeSize` of such a network, with `h` host bits: `0`, `2 ^ h`, or for a large IPv6 network
`math.MaxInt64`. -/
theorem rangeSize_of_parsed :
    rangeSize n = 0 ∨
      rangeSize n = 2 ^ (n.ip.family.bits - m.ones) ∧ n.ip.family.bits - m.ones ≤ 30 ∨
      n.ip.family = .v6 ∧
        (rangeSize n = 2 ^ (n.ip.family.bits - m.ones) ∧ n.ip.family.bits - m.ones ≤ 62 ∨
          rangeSize n = 2 ^ 63 - 1 ∧ 63 ≤ n.ip.family.bits - m.ones) := by
  unfold rangeSize
  simp only [size_mask_of_parsed hp hm]
  cases n.ip.family with
  | v4 =>
    rw [Family.bits_v4]
    by_cases h1 : 32 - m.ones ≥ 31
    · exact Or.inl (if_pos (Or.inl ⟨rfl, h1⟩))
    · refine Or.inr (Or.inl ⟨?_, by omega⟩)
      rw [if_neg (by omega), if_neg (by omega)]
  | v6 =>
    rw [Family.bits_v6]
    by_cases h1 : 128 - m.ones ≥ 127
    · exact Or.inl (if_pos (Or.inr ⟨rfl, h1⟩))
    · rw [if_neg (by omega)]
      by_cases h2 : 128 - m.ones ≥ 63
      · exact Or.inr (Or.inr ⟨rfl, Or.inr ⟨if_pos h2, h2⟩⟩)
      · exact Or.inr (Or.inr ⟨rfl, Or.inl ⟨if_neg h2, by omega⟩⟩)

omit hp hmapped hm in
/-- The number of offsets of a new range, from `RangeSize`. -/
theorem newCIDRRange_max (rangeSpec : String) :
    ((Range.newCIDRRange n rangeSpec).max : ℤ) =
      let max := if isIPv6CIDR n then (if rangeSize n > 65536 then 65536 else rangeSize n)
        else rangeSize n - 1
      if 0 > max - 1 then 0 else max - 1 := by
  simp only [Range.newCIDRRange]
  split_ifs <;> omega

/-- The offsets of a range built from such a network are fewer than its addresses and than
`2 ^ 32`, and an IPv4 range leaves the broadcast address out. -/
theorem newCIDRRange_max_of_parsed (rangeSpec : String) :
    (Range.newCIDRRange n rangeSpec).max + 1 ≤ 2 ^ (n.ip.family.bits - m.ones) ∧
      (Range.newCIDRRange n rangeSpec).max < 2 ^ 32 ∧
      (n.ip.family = .v4 → (Range.newCIDRRange n rangeSpec).max = 0 ∨
        (Range.newCIDRRange n rangeSpec).max + 2 ≤ 2 ^ (n.ip.family.bits - m.ones)) := by
  have hr := newCIDRRange_max (n := n) rangeSpec
  have hsize := rangeSize_of_parsed hp hm
  have hpos : 1 ≤ 2 ^ (n.ip.family.bits - m.ones) := Nat.one_le_two_pow
  have hcast : ((2 : ℤ) ^ (n.ip.family.bits - m.ones)) =
      ((2 ^ (n.ip.family.bits - m.ones) : ℕ) : ℤ) := by push_cast; rfl
  set max := (Range.newCIDRRange n rangeSpec).max
  set P := 2 ^ (n.ip.family.bits - m.ones)
  by_cases h6 : isIPv6CIDR n
  · have hf : n.ip.family = .v6 := by
      cases hf : n.ip.family
      · simp [isIPv6CIDR, IP.to4, hf] at h6
      · rfl
    simp only [h6, if_true] at hr
    rcases hsize with hs | ⟨hs, -⟩ | ⟨-, ⟨hs, -⟩ | ⟨hs, hbig⟩⟩
    · rw [hs] at hr
      refine ⟨?_, ?_, fun h4 => by rw [hf] at h4; cases h4⟩ <;> split_ifs at hr <;> omega
    · rw [hs, hcast] at hr
      refine ⟨?_, ?_, fun h4 => by rw [hf] at h4; cases h4⟩ <;> split_ifs at hr <;> omega
    · rw [hs, hcast] at hr
      refine ⟨?_, ?_, fun h4 => by rw [hf] at h4; cases h4⟩ <;> split_ifs at hr <;> omega
    · have hle : 2 ^ 16 ≤ P := Nat.pow_le_pow_right (by decide) (by omega)
      rw [hs] at hr
      refine ⟨?_, ?_, fun h4 => by rw [hf] at h4; cases h4⟩ <;> split_ifs at hr <;> omega
  · simp only [h6, Bool.false_eq_true, if_false] at hr
    have hf : n.ip.family = .v4 := by
      cases hf : n.ip.family
      · rfl
      · simp [isIPv6CIDR, hmapped hf] at h6
    rcases hsize with hs | ⟨hs, hsmall⟩ | ⟨hf', -⟩
    · rw [hs] at hr
      refine ⟨?_, ?_, fun _ => ?_⟩ <;> split_ifs at hr <;> omega
    · have hle : P ≤ 2 ^ 30 := Nat.pow_le_pow_right (by decide) hsmall
      rw [hs, hcast] at hr
      refine ⟨?_, ?_, fun _ => ?_⟩ <;> split_ifs at hr <;> omega
    · rw [hf] at hf'
      cases hf'

omit hmapped in
/-- The network's address and the numbers of its addresses fit in sixteen bytes. -/
theorem bigForIP_add_le :
    bigForIP n.ip + 2 ^ (n.ip.family.bits - m.ones) ≤ 2 ^ 128 := by
  have hA := hp.host_zero m hm
  have hAlt := n.ip.addr_lt
  have hpos : 1 ≤ 2 ^ (n.ip.family.bits - m.ones) := Nat.one_le_two_pow
  have hsum : n.ip.addr + (2 ^ (n.ip.family.bits - m.ones) - 1) < 2 ^ n.ip.family.bits :=
    add_lt_two_pow_of_mod_eq_zero hA hAlt (Nat.sub_le _ _) (by omega)
  cases hf : n.ip.family with
  | v4 =>
    rw [hf] at hsum
    simp only [bigForIP, hf, Family.bits_v4] at hsum ⊢
    omega
  | v6 =>
    rw [hf] at hsum
    simp only [bigForIP, hf, Family.bits_v6] at hsum ⊢
    omega

/-- With at most 64 host bits, `contains` reads the offset of every address of the range. -/
theorem newCIDRRange_contains_eq_true_iff
    (hhost : n.ip.family.bits - m.ones ≤ 64) (rangeSpec : String) (ip : IP) (o : ℤ) :
    (Range.newCIDRRange n rangeSpec).contains ip = (true, o) ↔
      0 ≤ o ∧ o < (Range.newCIDRRange n rangeSpec).max ∧
        bigForIP ip = (Range.newCIDRRange n rangeSpec).base + o := by
  obtain ⟨hmax1, hmax32, -⟩ := newCIDRRange_max_of_parsed hp hmapped hm rangeSpec
  have hP64 : 2 ^ (n.ip.family.bits - m.ones) ≤ 2 ^ 64 := Nat.pow_le_pow_right (by decide) hhost
  have hbase : (Range.newCIDRRange n rangeSpec).base = bigForIP n.ip + 1 := rfl
  unfold Range.contains calculateIPOffset
  rw [hbase]
  change (if !n.contains (some ip) then _ else _) = _ ↔ _
  constructor
  · intro h
    by_cases hc : n.contains (some ip) = true
    · obtain ⟨hlo, hhi⟩ := bigForIP_of_contains hp hmapped hm hc
      simp only [hc, Bool.not_true, Bool.false_eq_true, if_false] at h
      split_ifs at h with hout
      · cases h
      · obtain ⟨-, rfl⟩ := Prod.mk.inj h
        have hoff := Go.toInt64_of_nonneg (x := (bigForIP ip : ℤ) - (bigForIP n.ip + 1))
          (by omega) (by omega) (by omega)
        omega
    · simp [hc] at h
  · rintro ⟨ho0, homax, hx⟩
    have hc : n.contains (some ip) = true :=
      contains_of_bigForIP hp hmapped hm (y := (o + 1).toNat) (by omega) (by omega) (by omega)
    have hoff : Go.toInt64 ((bigForIP ip : ℤ) - (bigForIP n.ip + 1)) = o := by
      rw [show (bigForIP ip : ℤ) - (bigForIP n.ip + 1) = o by omega]
      exact Go.toInt64_of_lt (by omega) (by omega)
    simp only [hc, Bool.not_true, Bool.false_eq_true, if_false, hoff]
    rw [if_neg (by omega)]

end Parsed

/-! ## Offsets and addresses -/

/-- **The offsets of a range are its addresses.** For a CIDR as `net.ParseCIDR` returns it, other
than an IPv4-in-IPv6 one, with at most 64 host bits: `contains(ip)` is `(true, o)` exactly when
`o` is an offset of the range and `ip` is `base + o`; the address `AddIPOffset(base, o)` of an
offset (what `AllocateNext` returns) is `base + o` and is `GetIndexedIP(cidr, o + 1)` (what
`ForEach` reports); and neither the network address nor an IPv4 network's broadcast address is
in the range. -/
theorem newCIDRRange_contains_iff {cidr : IPNet} (hp : cidr.Parsed)
    (hmapped : cidr.ip.family = .v6 → cidr.ip.to4 = none)
    (hhost : (IPMask.size cidr.mask).2 - (IPMask.size cidr.mask).1 ≤ 64) (rangeSpec : String) :
    let r := Range.newCIDRRange cidr rangeSpec
    (∀ ip o, r.contains ip = (true, o) ↔ 0 ≤ o ∧ o < r.max ∧ bigForIP ip = r.base + o) ∧
    (∀ o : ℕ, o < r.max → bigForIP (addIPOffset r.base o) = r.base + o ∧
      getIndexedIP cidr (o + 1) = some (addIPOffset r.base o)) ∧
    (r.contains cidr.ip).1 = false ∧
    (cidr.ip.family = .v4 → (r.contains (IP.ofNat .v4
      (cidr.ip.addr + 2 ^ (32 - (IPMask.size cidr.mask).1) - 1))).1 = false) := by
  dsimp only
  obtain ⟨m, hm, -⟩ := hp.mask_family
  have hsize := size_mask_of_parsed hp hm
  rw [hsize] at hhost
  have hiff := newCIDRRange_contains_eq_true_iff hp hmapped hm hhost rangeSpec
  obtain ⟨hmax1, -, hbcast⟩ := newCIDRRange_max_of_parsed hp hmapped hm rangeSpec
  have hmax32 := (newCIDRRange_max_of_parsed hp hmapped hm rangeSpec).2.1
  have hroom := bigForIP_add_le hp hm
  set r := Range.newCIDRRange cidr rangeSpec
  have hbase : r.base = bigForIP cidr.ip + 1 := rfl
  have hout : ∀ ip, (∀ o : ℤ, 0 ≤ o → o < r.max → bigForIP ip ≠ r.base + o) →
      (r.contains ip).1 = false := by
    intro ip hne
    rcases hc : r.contains ip with ⟨_ | _, o⟩
    · rfl
    · obtain ⟨ho0, homax, hx⟩ := (hiff ip o).mp hc
      exact absurd hx (hne o ho0 homax)
  refine ⟨hiff, fun o ho => ?_, hout _ fun o _ _ => by rw [hbase]; omega, fun hf => hout _ ?_⟩
  · have haddr : bigForIP (addIPOffset r.base o) = r.base + o := by
      simp only [addIPOffset, bigForIP, IP.ofNat_family, IP.ofNat_addr, Family.bits_v6]
      rw [Nat.mod_eq_of_lt (by omega)]
      omega
    refine ⟨haddr, ?_⟩
    have hsame : addIPOffset (bigForIP cidr.ip) ((o : ℤ) + 1) = addIPOffset r.base o := by
      simp only [addIPOffset, hbase]
      congr 2
      ring
    have hc : cidr.contains (some (addIPOffset r.base o)) = true :=
      contains_of_bigForIP hp hmapped hm (y := o + 1) (by omega) (by omega) (by omega)
    simp only [getIndexedIP, hsame, hc, if_true]
  · intro o ho0 homax hx
    rw [hsize] at hx
    have hA := hp.host_zero m hm
    have hAlt := cidr.ip.addr_lt
    have hb := hbcast hf
    rw [hf] at hA hAlt hb
    simp only [Family.bits_v4] at hA hAlt hb
    have hpos : 1 ≤ 2 ^ (32 - m.ones) := Nat.one_le_two_pow
    have hsum : cidr.ip.addr + (2 ^ (32 - m.ones) - 1) < 2 ^ 32 :=
      add_lt_two_pow_of_mod_eq_zero hA hAlt (Nat.sub_le _ _) (by omega)
    have hB : bigForIP cidr.ip = 0xffff * 2 ^ 32 + cidr.ip.addr := by simp [bigForIP, hf]
    simp only [bigForIP, IP.ofNat_family, IP.ofNat_addr, Family.bits_v4] at hx
    rw [Nat.mod_eq_of_lt (by omega), hbase, hB] at hx
    rcases hb with h0 | h2 <;> omega

/-- The service CIDR `10.0.0.0/24`, whose offsets `0, …, 253` are `10.0.0.1, …, 10.0.0.254`. -/
theorem newCIDRRange_ten_slash_24_contains_iff :
    let cidr : IPNet := ⟨IP.ofNat .v4 (10 * 2 ^ 24), cidrMask 24 32⟩
    cidr.Parsed ∧ (cidr.ip.family = .v6 → cidr.ip.to4 = none) ∧
      (IPMask.size cidr.mask).2 - (IPMask.size cidr.mask).1 ≤ 64 ∧
      let r := Range.newCIDRRange cidr ""
      (∀ ip o, r.contains ip = (true, o) ↔ 0 ≤ o ∧ o < r.max ∧ bigForIP ip = r.base + o) ∧
      (∀ o : ℕ, o < r.max → bigForIP (addIPOffset r.base o) = r.base + o ∧
        getIndexedIP cidr (o + 1) = some (addIPOffset r.base o)) ∧
      (r.contains cidr.ip).1 = false ∧
      (cidr.ip.family = .v4 → (r.contains (IP.ofNat .v4
        (cidr.ip.addr + 2 ^ (32 - (IPMask.size cidr.mask).1) - 1))).1 = false) := by
  intro cidr
  have hmask : cidr.mask = some ⟨24, .v4, by decide⟩ := rfl
  have hp : cidr.Parsed := ⟨⟨_, hmask, rfl⟩, fun m hm => by
    rw [hmask, Option.some.injEq] at hm
    subst hm
    decide⟩
  exact ⟨hp, by decide, by decide, newCIDRRange_contains_iff hp (by decide) (by decide) ""⟩

end Kubernetes.IPAllocator
