import Mathlib
import Kubernetes.NodeIpam.CidrSet

/-!
# Block indices

`getIndexForCIDR` (`cidr_set.go`) reads the index of a block back from its address: it `XOR`s the
address with the cluster's and shifts out the node mask's host bits, on the first four bytes when
the address's `To4` is not `nil`, and on all sixteen otherwise. `getBeginingAndEndIndices` finds
the blocks of a CIDR with it, for `Occupy` and `Release`.

* `Layout.indexToCIDRBlock_subnet`: block `i` is a subnet of the cluster. Its address agrees with
  the cluster's on the cluster mask, its bits under the node mask's host bits are zero, and its
  network number under the node mask is the cluster's plus `i`; so no address lies in two
  blocks (`Layout.indexToCIDRBlock_disjoint`).
* `Layout.getIndexForCIDR_indexToCIDRBlock`: the index of block `i` is `i` for an IPv4 cluster
  whose `maxCIDRs` fits in a `uint32`, and for an IPv6 block whose address is not an
  IPv4-in-IPv6 one.
* Neither condition can be dropped (`newCIDRSet_getIndexForCIDR_mismatch`). An IPv6 cluster
  that holds `::ffff:0:0/96` has a block whose `To4` is not `nil`, whose index is read on the
  IPv4 path, and which `Occupy` does not mark. The IPv4 cluster `0.0.0.0/0` cut into `/32`
  blocks has `uint32(maxCIDRs) = 0`, and no block has an index.
-/

namespace Kubernetes.NodeIpam

open Net Bitset

namespace CidrSet

/-- `getIndexForCIDR`: the index of the block at the CIDR's address. -/
def getIndexForCIDR (s : CidrSet) (cidr : IPNet) : Except CidrSetError ℕ :=
  s.getIndexForIP (some cidr.ip)

variable {s : CidrSet} {i : ℕ}

/-! ## Blocks as subnets -/

/-- **Block `i` is a subnet of the cluster, `i` blocks in.** -/
theorem Layout.indexToCIDRBlock_subnet (h : s.Layout) (hi : i < s.maxCIDRs.toNat) :
    let bits := s.clusterCIDR.ip.family.bits
    let b := (s.indexToCIDRBlock i).ip
    b.family = s.clusterCIDR.ip.family ∧
      b.addr / 2 ^ (bits - s.clusterMaskSize) =
        s.clusterCIDR.ip.addr / 2 ^ (bits - s.clusterMaskSize) ∧
      b.addr % 2 ^ (bits - s.nodeMaskSize.toNat) = 0 ∧
      b.addr / 2 ^ (bits - s.nodeMaskSize.toNat) =
        s.clusterCIDR.ip.addr / 2 ^ (bits - s.nodeMaskSize.toNat) + i := by
  intro bits b
  have hc := h.cluster_le_node
  have hb := h.node_le_bits
  set k := bits - s.nodeMaskSize.toNat
  have hdvd : 2 ^ (bits - s.clusterMaskSize) ∣ s.clusterCIDR.ip.addr :=
    Nat.dvd_of_mod_eq_zero h.host_zero
  have hkdvd : 2 ^ k ∣ s.clusterCIDR.ip.addr :=
    (Nat.pow_dvd_pow 2 (by omega)).trans hdvd
  have haddr : b.addr = s.clusterCIDR.ip.addr + i * 2 ^ k := h.indexToCIDRBlock_addr hi
  have hlt : i * 2 ^ k < 2 ^ (bits - s.clusterMaskSize) :=
    index_mul_lt (by omega) (by omega) (h.index_lt hi)
  refine ⟨by simp only [b, h.indexToCIDRBlock_ip hi, IP.ofNat_family], ?_, ?_, ?_⟩
  · rw [haddr, Nat.add_div_of_dvd_right hdvd, Nat.div_eq_of_lt hlt, Nat.add_zero]
  · rw [haddr]
    exact Nat.mod_eq_zero_of_dvd (Nat.dvd_add hkdvd (dvd_mul_left _ _))
  · rw [haddr, Nat.add_div_of_dvd_right hkdvd, Nat.mul_div_cancel _ (Nat.two_pow_pos k)]

/-- **No address lies in two blocks.** -/
theorem Layout.indexToCIDRBlock_disjoint (h : s.Layout) {j : ℕ} (hi : i < s.maxCIDRs.toNat)
    (hj : j < s.maxCIDRs.toNat) (hij : i ≠ j) (x : ℕ) :
    let k := s.clusterCIDR.ip.family.bits - s.nodeMaskSize.toNat
    x / 2 ^ k = (s.indexToCIDRBlock i).ip.addr / 2 ^ k →
      x / 2 ^ k ≠ (s.indexToCIDRBlock j).ip.addr / 2 ^ k := by
  intro k hxi hxj
  have hni : (s.indexToCIDRBlock i).ip.addr / 2 ^ k = s.clusterCIDR.ip.addr / 2 ^ k + i :=
    (h.indexToCIDRBlock_subnet hi).2.2.2
  have hnj : (s.indexToCIDRBlock j).ip.addr / 2 ^ k = s.clusterCIDR.ip.addr / 2 ^ k + j :=
    (h.indexToCIDRBlock_subnet hj).2.2.2
  exact hij (by omega)

/-! ## Reading the index back -/

/-- The cluster address `XOR` the address of block `i` is `i` blocks. -/
theorem Layout.xor_indexToCIDRBlock (h : s.Layout) (hi : i < s.maxCIDRs.toNat) :
    s.clusterCIDR.ip.addr ^^^ (s.indexToCIDRBlock i).ip.addr =
      i * 2 ^ (s.clusterCIDR.ip.family.bits - s.nodeMaskSize.toNat) := by
  have hc := h.cluster_le_node
  have hb := h.node_le_bits
  rw [h.indexToCIDRBlock_addr hi]
  exact xor_add_of_mod_eq_zero h.host_zero (index_mul_lt (by omega) (by omega) (h.index_lt hi))

/-- A conversion `uint32(x)` or `uint64(x)` of an `int` that fits. -/
theorem toUnsigned_of_lt {w : ℕ} {x : ℤ} (h0 : 0 ≤ x) (hx : x < 2 ^ w) :
    Go.toUnsigned w x = x.toNat := by
  unfold Go.toUnsigned
  rw [Int.emod_eq_of_lt h0 hx]

/-- **Block `i` has index `i`**, unless the cluster is IPv4 and `uint32(maxCIDRs)` wraps, or the
cluster is IPv6 and the block's address is an IPv4-in-IPv6 one. -/
theorem Layout.getIndexForCIDR_indexToCIDRBlock (h : s.Layout) (hi : i < s.maxCIDRs.toNat)
    (h32 : s.clusterCIDR.ip.family = .v4 → s.maxCIDRs < 2 ^ 32)
    (hmapped : s.clusterCIDR.ip.family = .v6 → (s.indexToCIDRBlock i).ip.to4 = none) :
    s.getIndexForCIDR (s.indexToCIDRBlock i) = .ok i := by
  have hc := h.cluster_le_node
  have hb := h.node_le_bits
  have hxor := h.xor_indexToCIDRBlock hi
  have hfam := (h.indexToCIDRBlock_subnet hi).1
  have hmax0 : 0 ≤ s.maxCIDRs := by
    rw [h.max_eq]
    positivity
  unfold getIndexForCIDR getIndexForIP
  cases hf : s.clusterCIDR.ip.family with
  | v4 =>
    rw [hf] at hxor hb
    simp only [Family.bits_v4, Nat.cast_ofNat] at hxor hb
    have h4 : (s.indexToCIDRBlock i).ip.to4 = some (s.indexToCIDRBlock i).ip := by
      simp [IP.to4, hfam, hf]
    have hu : s.clusterCIDR.ip.uint32 = s.clusterCIDR.ip.addr := by simp [IP.uint32, hf]
    have hshift : Go.toUnsigned 32 (32 - s.nodeMaskSize) = 32 - s.nodeMaskSize.toNat := by
      rw [toUnsigned_of_lt (by omega) (by omega)]
      omega
    rw [Option.bind_some, h4]
    dsimp only
    rw [hu, hxor, hshift, toUnsigned_of_lt hmax0 (h32 hf), Nat.shiftRight_eq_div_pow,
      Nat.mul_div_cancel _ (Nat.two_pow_pos _), if_neg (by omega)]
  | v6 =>
    rw [hf] at hxor hb
    simp only [Family.bits_v6, Nat.cast_ofNat] at hxor hb
    have hd := h.v6_diff hf
    have hmax : s.maxCIDRs ≤ 2 ^ 16 := by
      rw [h.max_eq]
      exact_mod_cast Nat.pow_le_pow_right (by decide) (by omega)
    have hshift : Go.toUnsigned 64 (128 - s.nodeMaskSize) = 128 - s.nodeMaskSize.toNat := by
      rw [toUnsigned_of_lt (by omega) (by omega)]
      omega
    rw [Option.bind_some, hmapped hf]
    dsimp only
    rw [hxor, hshift, toUnsigned_of_lt hmax0 (by omega), Nat.shiftRight_eq_div_pow,
      Nat.mul_div_cancel _ (Nat.two_pow_pos _), Nat.mod_eq_of_lt (by omega), if_neg (by omega)]

/-! ## Clusters whose blocks do not read back -/

/-- **Two cluster CIDRs whose blocks do not read back**, both as `net.ParseCIDR` returns them.
The IPv6 cluster `::/80` cut into `/96` blocks: block `0xffff` is `::ffff:0:0/96`, whose `To4` is
`0.0.0.0`, so `getIndexForCIDR` takes the IPv4 path and reads index 0, `getBeginingAndEndIndices`
gives `[0, 0]`, and `Occupy` of the block marks block 0 only. The IPv4 cluster `0.0.0.0/0` cut into
`/32` blocks: `uint32(maxCIDRs)` is 0, and `getIndexForCIDR` refuses block 1. -/
theorem newCIDRSet_getIndexForCIDR_mismatch :
    IPNet.Parsed ⟨IP.ofNat .v6 0, cidrMask 80 128⟩ ∧ IPNet.Parsed ⟨IP.ofNat .v4 0, cidrMask 0 32⟩ ∧
    (∃ s s', newCIDRSet ⟨IP.ofNat .v6 0, cidrMask 80 128⟩ 96 = .ok s ∧ 0xffff < s.maxCIDRs ∧
      s.getIndexForCIDR (s.indexToCIDRBlock 0xffff) = .ok 0 ∧
      s.getBeginingAndEndIndices (some (s.indexToCIDRBlock 0xffff)) = .ok (0, 0) ∧
      s.occupy (some (s.indexToCIDRBlock 0xffff)) = .ok s' ∧ s'.used = 1) ∧
    ∃ s, newCIDRSet ⟨IP.ofNat .v4 0, cidrMask 0 32⟩ 32 = .ok s ∧ 1 < s.maxCIDRs ∧
      s.getIndexForCIDR (s.indexToCIDRBlock 1) =
        .error (.outOfAllocatorRange (some (s.indexToCIDRBlock 1).ip) 32) := by
  have hmask6 : cidrMask 80 128 = some ⟨80, .v6, by decide⟩ := rfl
  have hmask4 : cidrMask 0 32 = some ⟨0, .v4, by decide⟩ := rfl
  refine ⟨⟨⟨_, hmask6, rfl⟩, fun m hm => ?_⟩, ⟨⟨_, hmask4, rfl⟩, fun m hm => ?_⟩, ?_, ?_⟩
  · change cidrMask 80 128 = some m at hm
    rw [hmask6, Option.some.injEq] at hm
    subst hm
    decide
  · change cidrMask 0 32 = some m at hm
    rw [hmask4, Option.some.injEq] at hm
    subst hm
    decide
  · refine ⟨_, _, rfl, ?_, ?_, ?_, rfl, ?_⟩ <;> decide
  · refine ⟨_, rfl, ?_, ?_⟩ <;> decide

end CidrSet

end Kubernetes.NodeIpam
