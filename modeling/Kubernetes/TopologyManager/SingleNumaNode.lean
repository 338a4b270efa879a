import Mathlib
import Kubernetes.TopologyManager.Policy

/-!
# The `single-numa-node` policy

`singleNumaNodePolicy.Merge` (`policy_single_numa_node.go`) merges only the hints that are
preferred and have no mask or the mask of one NUMA node (`filterSingleNumaHints`), reports the
machine's mask as no mask, and admits the result when it is preferred.

A choice of such hints merges to a mask with a node in it exactly when all its masks are those of
one node `k` of the machine, or it has none (`ChoiceOn`): it merges to the mask of `k`, or to the
machine's (`mergePermutation_of_choiceOn`, `choiceOn_of_mem_candidates`). So Merge admits exactly
when such a choice exists, and returns no mask or the mask of one node, the lowest node some
choice names (`singleNumaNodeMerge_spec`).

This needs a machine with a NUMA node, all of them in `0..63`: with none, a choice of hints
without masks merges to the empty mask, and Merge does not admit it
(`singleNumaNodeMerge_no_numa_nodes`); with a node outside `0..63`, `NewBitMask` fails and Merge
panics.
-/

namespace Kubernetes.TopologyManager

open BitMask

/-- `filterSingleNumaHints(allResourcesHints)`: of each list, the preferred hints with no mask or
the mask of one NUMA node. -/
def filterSingleNumaHints (allResourcesHints : List (List TopologyHint)) :
    List (List TopologyHint) :=
  allResourcesHints.map fun oneResourceHints => oneResourceHints.filter fun hint =>
    match hint.numaNodeAffinity with
    | none => hint.preferred
    | some mask => mask.count == 1 && hint.preferred

/-- `singleNumaNodePolicy.Merge(providersHints)`: the merged hint of the single-node hints, with
the machine's mask reported as no mask, admitted when preferred (`canAdmitPodResult`); `none` for
a panic. -/
def singleNumaNodeMerge (numaNodes : List ℤ)
    (providersHints : List (List (Option (List TopologyHint)))) : Option (TopologyHint × Bool) :=
  let filteredHints := filterProvidersHints providersHints
  -- only the hints without a mask or with a single NUMA node
  let singleNumaHints := filterSingleNumaHints filteredHints
  (mergeFilteredHints numaNodes singleNumaHints).bind fun bestHint =>
    -- `IsEqual` panics on a `nil` default affinity
    (newBitMask numaNodes).map fun defaultAffinity =>
      let bestHint : TopologyHint :=
        if bestHint.numaNodeAffinity = defaultAffinity then ⟨none, bestHint.preferred⟩
        else bestHint.toTopologyHint
      (bestHint, bestHint.preferred)

/-! ## Choices of single-node hints -/

/-- A hint `filterSingleNumaHints` keeps. -/
def SingleNuma (hint : TopologyHint) : Prop :=
  hint.preferred = true ∧ ∀ m, hint.numaNodeAffinity = some m → m.count = 1

/-- A choice of one hint per list, each preferred, with no mask or the mask of the node `k`. -/
def ChoiceOn (filteredHints : List (List TopologyHint)) (k : ℤ)
    (permutation : List TopologyHint) : Prop :=
  List.Forall₂ (· ∈ ·) permutation filteredHints ∧
    ∀ hint ∈ permutation, hint.preferred = true ∧
      (hint.numaNodeAffinity = none ∨ hint.numaNodeAffinity = newBitMask [k])

/-- A choice of one hint per list, each preferred and with no mask or the mask of one node, whose
masks are all of one node of the machine, or which has none. -/
def SingleNumaChoice (numaNodes : List ℤ) (filteredHints : List (List TopologyHint))
    (permutation : List TopologyHint) : Prop :=
  List.Forall₂ (· ∈ ·) permutation filteredHints ∧ (∀ hint ∈ permutation, hint.preferred = true) ∧
    ((∀ hint ∈ permutation, hint.numaNodeAffinity = none) ∨
      ∃ k ∈ numaNodes, ∀ hint ∈ permutation,
        hint.numaNodeAffinity = none ∨ hint.numaNodeAffinity = newBitMask [k])

theorem mem_filter_singleNuma {hint : TopologyHint} {hints : List TopologyHint} :
    hint ∈ hints.filter (fun hint => match hint.numaNodeAffinity with
      | none => hint.preferred
      | some mask => mask.count == 1 && hint.preferred) ↔ hint ∈ hints ∧ SingleNuma hint := by
  rw [List.mem_filter, SingleNuma]
  cases hint.numaNodeAffinity with
  | none => simp
  | some mask => simp [and_comm]

theorem forall₂_filterSingleNumaHints {permutation : List TopologyHint}
    {filteredHints : List (List TopologyHint)} :
    List.Forall₂ (· ∈ ·) permutation (filterSingleNumaHints filteredHints) ↔
      List.Forall₂ (· ∈ ·) permutation filteredHints ∧ ∀ hint ∈ permutation, SingleNuma hint := by
  have hswap : (fun hint hints => hint ∈ hints ∧ SingleNuma hint) =
      fun hint (hints : List TopologyHint) => SingleNuma hint ∧ hint ∈ hints := by
    funext hint hints
    exact propext and_comm
  rw [filterSingleNumaHints, List.forall₂_map_right_iff]
  simp only [mem_filter_singleNuma]
  rw [hswap, List.forall₂_and_left, and_comm]

/-- With a node in the machine, a choice of hints all on one node is a choice on some node `k`
of the machine. -/
theorem exists_singleNumaChoice_iff {numaNodes : List ℤ} (hne : numaNodes ≠ [])
    (filteredHints : List (List TopologyHint)) :
    (∃ permutation, SingleNumaChoice numaNodes filteredHints permutation) ↔
      ∃ k ∈ numaNodes, ∃ permutation, ChoiceOn filteredHints k permutation := by
  constructor
  · rintro ⟨permutation, hL, hpref, hnone | ⟨k, hk, hon⟩⟩
    · -- no masks: any node of the machine will do
      obtain ⟨k, hk⟩ := List.exists_mem_of_ne_nil _ hne
      exact ⟨k, hk, permutation, hL, fun hint h => ⟨hpref hint h, .inl (hnone hint h)⟩⟩
    · exact ⟨k, hk, permutation, hL, fun hint h => ⟨hpref hint h, hon hint h⟩⟩
  · rintro ⟨k, hk, permutation, hL, hon⟩
    exact ⟨permutation, hL, fun hint h => (hon hint h).1,
      .inr ⟨k, hk, fun hint h => (hon hint h).2⟩⟩

theorem mem_getBits_mergePermutation (defaultAffinity : BitMask) (permutation : List TopologyHint)
    (b : ℤ) : b ∈ (mergePermutation defaultAffinity permutation).numaNodeAffinity.getBits ↔
      b ∈ defaultAffinity.getBits ∧
        ∀ hint ∈ permutation, b ∈ (hint.numaNodeAffinity.getD defaultAffinity).getBits := by
  simp [mergePermutation, mem_getBits_and]

section Merge

variable {numaNodes : List ℤ} {defaultAffinity : BitMask}
  (hdef : newBitMask numaNodes = some defaultAffinity)

include hdef

/-- **The merged hint of a choice on the node `k`**: preferred, with `k` in its mask, which is the
machine's when no hint has a mask and `k`'s alone when one has. -/
theorem mergePermutation_of_choiceOn {k : ℤ} (hk : k ∈ numaNodes)
    {permutation : List TopologyHint}
    (hon : ∀ hint ∈ permutation, hint.preferred = true ∧
      (hint.numaNodeAffinity = none ∨ hint.numaNodeAffinity = newBitMask [k])) :
    (mergePermutation defaultAffinity permutation).preferred = true ∧
      k ∈ (mergePermutation defaultAffinity permutation).numaNodeAffinity.getBits ∧
      ((∀ hint ∈ permutation, hint.numaNodeAffinity = none) →
        (mergePermutation defaultAffinity permutation).numaNodeAffinity = defaultAffinity) ∧
      ((∃ hint ∈ permutation, hint.numaNodeAffinity ≠ none) →
        newBitMask [k] = some (mergePermutation defaultAffinity permutation).numaNodeAffinity) := by
  have hkdef : k ∈ defaultAffinity.getBits := (mem_getBits_of_newBitMask hdef).mpr hk
  obtain ⟨mk, hmk⟩ : ∃ mk, newBitMask [k] = some mk :=
    Option.isSome_iff_exists.mp ((add_isSome_iff empty [k]).mpr fun i hi =>
    List.mem_singleton.mp hi ▸ ((add_eq_some_iff empty numaNodes defaultAffinity).mp hdef).1 k hk)
  have hmkbits : mk.getBits = [k] := newBitMask_singleton.mp hmk
  rw [hmk] at hon
  have hmask : ∀ hint ∈ permutation,
      hint.numaNodeAffinity = none ∨ hint.numaNodeAffinity = some mk :=
    fun hint h => (hon hint h).2
  have hkmerged : k ∈ (mergePermutation defaultAffinity permutation).numaNodeAffinity.getBits := by
    refine (mem_getBits_mergePermutation _ _ k).mpr ⟨hkdef, fun hint h => ?_⟩
    rcases hmask hint h with hnil | hsome
    · simp [hnil, hkdef]
    · simp [hsome, hmkbits]
  refine ⟨?_, hkmerged, fun hnone => ?_, fun ⟨hint₀, h₀, hsome⟩ => ?_⟩
  · simpa [mergePermutation] using fun hint h => (hon hint h).1
  · refine ext_getBits fun b => ?_
    rw [mem_getBits_mergePermutation]
    exact ⟨And.left, fun hb => ⟨hb, fun hint h => by simp [hnone hint h, hb]⟩⟩
  · have hmkeq : hint₀.numaNodeAffinity = some mk := (hmask hint₀ h₀).resolve_left hsome
    rw [hmk, Option.some.injEq]
    refine ext_getBits fun b => ?_
    rw [hmkbits, List.mem_singleton]
    constructor
    · rintro rfl
      exact hkmerged
    · intro hb
      simpa [hmkeq, hmkbits] using ((mem_getBits_mergePermutation _ _ b).mp hb).2 hint₀ h₀

/-- A choice on a node of the machine merges to a candidate. -/
theorem mem_candidates_of_choiceOn {filteredHints : List (List TopologyHint)} {k : ℤ}
    (hk : k ∈ numaNodes) {permutation : List TopologyHint}
    (hchoice : ChoiceOn filteredHints k permutation) :
    mergePermutation defaultAffinity permutation ∈
      candidates defaultAffinity (filterSingleNumaHints filteredHints) := by
  have hsingle : ∀ hint ∈ permutation, SingleNuma hint := by
    intro hint h
    refine ⟨(hchoice.2 hint h).1, fun m hm => ?_⟩
    rcases (hchoice.2 hint h).2 with hnil | hk'
    · simp [hnil] at hm
    · rw [hm, eq_comm, newBitMask_singleton] at hk'
      exact count_eq_one_iff.mpr ⟨k, hk'⟩
  have hbit := (mergePermutation_of_choiceOn hdef hk hchoice.2).2.1
  refine ⟨permutation, forall₂_filterSingleNumaHints.mpr ⟨hchoice.1, hsingle⟩, rfl, ?_⟩
  rw [count_eq_length_getBits]
  exact List.length_pos_iff.mpr (List.ne_nil_of_mem hbit) |>.ne'

/-- Every candidate is the merged hint of a choice on a node of the machine. -/
theorem choiceOn_of_mem_candidates {filteredHints : List (List TopologyHint)} {c : MergedHint}
    (hc : c ∈ candidates defaultAffinity (filterSingleNumaHints filteredHints)) :
    ∃ k ∈ numaNodes, ∃ permutation, ChoiceOn filteredHints k permutation ∧
      mergePermutation defaultAffinity permutation = c := by
  obtain ⟨permutation, hperm, rfl, hcount⟩ := hc
  obtain ⟨hL, hsingle⟩ := forall₂_filterSingleNumaHints.mp hperm
  obtain ⟨k, hk⟩ := List.exists_mem_of_ne_nil
      (mergePermutation defaultAffinity permutation).numaNodeAffinity.getBits fun hnil => hcount (by
    rw [count_eq_length_getBits, hnil, List.length_nil])
  obtain ⟨hkdef, hall⟩ := (mem_getBits_mergePermutation _ _ k).mp hk
  refine ⟨k, (mem_getBits_of_newBitMask hdef).mp hkdef, permutation, ⟨hL, fun hint h => ?_⟩, rfl⟩
  refine ⟨(hsingle hint h).1, ?_⟩
  cases hmask : hint.numaNodeAffinity with
  | none => exact .inl rfl
  | some m =>
    obtain ⟨j, hj⟩ := count_eq_one_iff.mp ((hsingle hint h).2 m hmask)
    have hkm : k ∈ m.getBits := by simpa [hmask] using hall hint h
    rw [hj, List.mem_singleton] at hkm
    subst hkm
    exact .inr (newBitMask_singleton.mpr hj).symm

end Merge

theorem val_le_of_le {a b : MergedHint} (hab : a ≤ b) (hpreferred : a.preferred = b.preferred)
    (hcount : a.numaNodeAffinity.count = b.numaNodeAffinity.count) :
    a.numaNodeAffinity.val ≤ b.numaNodeAffinity.val := by
  rw [MergedHint.le_iff_score, MergedHint.score, MergedHint.score, Prod.Lex.toLex_le_toLex,
    Prod.Lex.toLex_le_toLex] at hab
  simpa [hpreferred, hcount] using hab

/-! ## What Merge returns -/

/-- **The `single-numa-node` policy**, on a machine with NUMA nodes, all in `0..63`: Merge admits
exactly when some choice of one hint per provider and resource is preferred throughout, with
masks of one node, all of one node of the machine, or with none; the affinity it returns has one
node if any; and when it admits with a mask, the mask is that of a node some choice names, the
lowest such node. -/
theorem singleNumaNodeMerge_spec {numaNodes : List ℤ} (hne : numaNodes ≠ [])
    (hrange : ∀ k ∈ numaNodes, 0 ≤ k ∧ k < 64)
    (providersHints : List (List (Option (List TopologyHint)))) :
    ∃ hint admits, singleNumaNodeMerge numaNodes providersHints = some (hint, admits) ∧
      (admits = true ↔ ∃ permutation,
        SingleNumaChoice numaNodes (filterProvidersHints providersHints) permutation) ∧
      (∀ m, hint.numaNodeAffinity = some m → m.count = 1) ∧
      (admits = true → ∀ m, hint.numaNodeAffinity = some m → ∃ k ∈ numaNodes,
        newBitMask [k] = some m ∧
        (∃ permutation, ChoiceOn (filterProvidersHints providersHints) k permutation ∧
          ∃ h ∈ permutation, h.numaNodeAffinity ≠ none) ∧
        ∀ k' ∈ numaNodes, ∀ permutation,
          ChoiceOn (filterProvidersHints providersHints) k' permutation →
          (∃ h ∈ permutation, h.numaNodeAffinity ≠ none) → k ≤ k') := by
  obtain ⟨defaultAffinity, hdef⟩ : ∃ d, newBitMask numaNodes = some d :=
    Option.isSome_iff_exists.mp ((add_isSome_iff empty numaNodes).mpr hrange)
  obtain ⟨bestHint, hmerge, hleast, hempty⟩ :=
    mergeFilteredHints_spec hdef (filterSingleNumaHints (filterProvidersHints providersHints))
  rw [exists_singleNumaChoice_iff hne]
  refine ⟨_, _, by
    simp only [singleNumaNodeMerge, hmerge, hdef, Option.bind_some, Option.map_some]
    rfl, ?_⟩
  by_cases hcand : (candidates defaultAffinity
      (filterSingleNumaHints (filterProvidersHints providersHints))).Nonempty
  · -- the least candidate: a choice on some node `k`
    obtain ⟨k, hk, permutation, hchoice, hbest⟩ := choiceOn_of_mem_candidates hdef (hleast hcand).1
    obtain ⟨hpref, -, hnone, hsome⟩ := mergePermutation_of_choiceOn hdef hk hchoice.2
    rw [hbest] at hpref hnone hsome
    have hadmit : (if bestHint.numaNodeAffinity = defaultAffinity then
        (⟨none, bestHint.preferred⟩ : TopologyHint)
        else bestHint.toTopologyHint).preferred = true := by
      split <;> exact hpref
    have hmask : ∀ m, (if bestHint.numaNodeAffinity = defaultAffinity then
        (⟨none, bestHint.preferred⟩ : TopologyHint) else bestHint.toTopologyHint).numaNodeAffinity =
          some m →
        m = bestHint.numaNodeAffinity ∧ ∃ h ∈ permutation, h.numaNodeAffinity ≠ none := by
      intro m hm
      split at hm
      · cases hm
      · rename_i hne'
        cases hm
        refine ⟨rfl, ?_⟩
        by_contra hall
        exact hne' (hnone fun h hh => by
          by_contra hmasked
          exact hall ⟨h, hh, hmasked⟩)
    refine ⟨iff_of_true hadmit ⟨k, hk, permutation, hchoice⟩, fun m hm => ?_, fun _ m hm => ?_⟩
    · obtain ⟨rfl, hnamed⟩ := hmask m hm
      exact count_eq_one_iff.mpr ⟨k, newBitMask_singleton.mp (hsome hnamed)⟩
    · obtain ⟨rfl, hnamed⟩ := hmask m hm
      refine ⟨k, hk, hsome hnamed, ⟨permutation, hchoice, hnamed⟩, fun k' hk' permutation' hchoice'
        hnamed' => ?_⟩
      have hle := (hleast hcand).2 (mem_candidates_of_choiceOn hdef hk' hchoice')
      obtain ⟨hpref', -, -, hsome'⟩ := mergePermutation_of_choiceOn hdef hk' hchoice'.2
      have hbits := newBitMask_singleton.mp (hsome hnamed)
      have hbits' := newBitMask_singleton.mp (hsome' hnamed')
      have hval := val_le_of_le hle (hpref.trans hpref'.symm)
        (by simp only [count_eq_length_getBits, hbits, hbits', List.length_singleton])
      rw [val_of_getBits_singleton hbits, val_of_getBits_singleton hbits'] at hval
      have hk0 := (hrange k hk).1
      have hk0' := (hrange k' hk').1
      have := (Nat.pow_le_pow_iff_right (by norm_num : 1 < 2)).mp hval
      omega
  · -- no candidate: the machine's mask, not preferred, reported as none
    rw [Set.not_nonempty_iff_eq_empty] at hcand
    obtain rfl := hempty hcand
    refine ⟨?_, fun m hm => by simp at hm, fun h => by simp at h⟩
    simp only [if_true, Bool.false_eq_true, false_iff, not_exists, not_and]
    intro k hk permutation hchoice
    have := mem_candidates_of_choiceOn hdef hk hchoice
    rw [hcand] at this
    exact this

/-- One provider offering NUMA node 1 alone and nodes 0 and 1 together, on a machine with nodes 0
and 1. -/
def nodeOneHints : List (List (Option (List TopologyHint))) :=
  [[some [⟨some ⟨2, by decide⟩, true⟩, ⟨some ⟨3, by decide⟩, true⟩]]]

theorem singleNumaNodeMerge_spec_nodeOne :
    ([0, 1] : List ℤ) ≠ [] ∧ (∀ k ∈ ([0, 1] : List ℤ), 0 ≤ k ∧ k < 64) ∧
      ∃ hint admits, singleNumaNodeMerge [0, 1] nodeOneHints = some (hint, admits) ∧
      (admits = true ↔ ∃ permutation,
        SingleNumaChoice [0, 1] (filterProvidersHints nodeOneHints) permutation) ∧
      (∀ m, hint.numaNodeAffinity = some m → m.count = 1) ∧
      (admits = true → ∀ m, hint.numaNodeAffinity = some m → ∃ k ∈ ([0, 1] : List ℤ),
        newBitMask [k] = some m ∧
        (∃ permutation, ChoiceOn (filterProvidersHints nodeOneHints) k permutation ∧
          ∃ h ∈ permutation, h.numaNodeAffinity ≠ none) ∧
        ∀ k' ∈ ([0, 1] : List ℤ), ∀ permutation,
          ChoiceOn (filterProvidersHints nodeOneHints) k' permutation →
          (∃ h ∈ permutation, h.numaNodeAffinity ≠ none) → k ≤ k') :=
  ⟨by decide, by decide, singleNumaNodeMerge_spec (by decide) (by decide) nodeOneHints⟩

example : singleNumaNodeMerge [0, 1] nodeOneHints = some (⟨some ⟨2, by norm_num⟩, true⟩, true) := by
  decide

/-- **On a machine without NUMA nodes a choice without masks is not admitted**: one provider with
no preference for one resource gives the choice of its one hint without a mask, preferred, and
Merge returns no mask, not admitted. -/
theorem singleNumaNodeMerge_no_numa_nodes :
    SingleNumaChoice [] (filterProvidersHints [[none]]) [⟨none, true⟩] ∧
      singleNumaNodeMerge [] [[none]] = some (⟨none, false⟩, false) :=
  ⟨⟨by decide, by decide, .inl (by decide)⟩, by decide⟩

end Kubernetes.TopologyManager
