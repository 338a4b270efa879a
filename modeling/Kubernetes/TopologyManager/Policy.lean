import Mathlib
import Kubernetes.TopologyManager.Bitmask
import Kubernetes.Foundations.Best

/-!
# Merging the hints of the hint providers

The `best-effort` and `restricted` policies of the topology manager (`policy.go`) merge the hints
the hint providers give for a container. `filterProvidersHints` turns each provider's map of
resources to hint lists into one list per resource; `iterateAllProviderTopologyHints` runs
through every choice of one hint per list; `mergePermutation` merges a choice into the bitwise
AND of its masks, with `nil` for the machine's mask, preferred when every hint is; and
`mergeFilteredHints` keeps, starting from the machine's mask not preferred, the best merged hint
with a non-empty mask: preferred before not preferred, then narrower.

A provider's map is the list of its values in the order Go ranges over it; a `nil` slice is
`none`. `NewBitMask` fails on a NUMA node outside `0..63`: Go's default mask is then `nil`, and
the first `mergePermutation` panics on it; there is always a first choice, so `Merge` panics,
`none` here.

`merge_isLeast`: the merged hint is the least candidate in the order `MergedHint.score` gives
(`lt_iff_preferred`), or the machine's mask when no choice merges to a non-empty mask, whatever
the order of providers and resources.
-/

namespace Kubernetes.TopologyManager

open BitMask

/-- `TopologyHint`: a NUMA affinity, `nil` for none, and whether the allocation it stands for is
preferred. -/
structure TopologyHint where
  numaNodeAffinity : Option BitMask
  preferred : Bool
  deriving DecidableEq

/-- A `TopologyHint` whose mask is set, as `mergePermutation` builds and `mergeFilteredHints`
keeps. -/
structure MergedHint where
  numaNodeAffinity : BitMask
  preferred : Bool
  deriving DecidableEq

def MergedHint.toTopologyHint (h : MergedHint) : TopologyHint := ⟨some h.numaNodeAffinity, h.preferred⟩

/-- `mergePermutation(numaNodes, permutation)`, with `defaultAffinity` the mask of `numaNodes`:
the AND of the machine's mask and the hints' masks, `nil` counting as the machine's, preferred
when every hint is. -/
def mergePermutation (defaultAffinity : BitMask) (permutation : List TopologyHint) : MergedHint :=
  let numaAffinities := permutation.map fun hint => hint.numaNodeAffinity.getD defaultAffinity
  ⟨defaultAffinity.and numaAffinities, permutation.all (·.preferred)⟩

/-- `filterProvidersHints`: one hint list per resource of each provider. A provider with no
hints has no preference (one preferred `nil` hint), as has a resource with a `nil` list; a
resource with an empty list has no possible affinity (one `nil` hint not preferred). -/
def filterProvidersHints (providersHints : List (List (Option (List TopologyHint)))) :
    List (List TopologyHint) :=
  providersHints.flatMap fun hints =>
    if hints.length = 0 then [[⟨none, true⟩]]
    else hints.map fun resourceHints =>
      match resourceHints with
      | none => [⟨none, true⟩]
      | some [] => [⟨none, false⟩]
      | some l => l

/-- The inner `iterate(i, accum)` of `iterateAllProviderTopologyHints`, over the lists from `i`
on, with the state the callback updates. -/
def iterate {σ : Type*} (callback : σ → List TopologyHint → σ) :
    List (List TopologyHint) → List TopologyHint → σ → σ
  | [], accum, s => callback s accum
  | hints :: rest, accum, s => hints.foldl (fun s hint => iterate callback rest (accum ++ [hint]) s) s

/-- `iterateAllProviderTopologyHints(allProviderHints, callback)`. -/
def iterateAllProviderTopologyHints {σ : Type*} (allProviderHints : List (List TopologyHint))
    (callback : σ → List TopologyHint → σ) (s : σ) : σ :=
  iterate callback allProviderHints [] s

/-- The callback of `mergeFilteredHints`: a merged hint with an empty mask is skipped, one
preferred over a best not preferred replaces it, one not preferred under a preferred best does
not, and between equals the narrower wins. -/
def mergeCallback (defaultAffinity : BitMask) (bestHint : MergedHint)
    (permutation : List TopologyHint) : MergedHint :=
  let mergedHint := mergePermutation defaultAffinity permutation
  if mergedHint.numaNodeAffinity.count = 0 then bestHint
  else if mergedHint.preferred && !bestHint.preferred then mergedHint
  else if !mergedHint.preferred && bestHint.preferred then bestHint
  else if !mergedHint.numaNodeAffinity.isNarrowerThan bestHint.numaNodeAffinity then bestHint
  else mergedHint

/-- `mergeFilteredHints(numaNodes, filteredHints)`. -/
def mergeFilteredHints (numaNodes : List ℤ) (filteredHints : List (List TopologyHint)) :
    Option MergedHint :=
  match newBitMask numaNodes with
  | none => none
  | some defaultAffinity =>
    some (iterateAllProviderTopologyHints filteredHints (mergeCallback defaultAffinity)
      ⟨defaultAffinity, false⟩)

/-- `bestEffortPolicy.Merge`: the merged hint, always admitted. -/
def bestEffortMerge (numaNodes : List ℤ) (providersHints : List (List (Option (List TopologyHint)))) :
    Option (TopologyHint × Bool) :=
  (mergeFilteredHints numaNodes (filterProvidersHints providersHints)).map fun bestHint =>
    (bestHint.toTopologyHint, true)

/-- `restrictedPolicy.Merge`: the merged hint, admitted when it is preferred. -/
def restrictedMerge (numaNodes : List ℤ) (providersHints : List (List (Option (List TopologyHint)))) :
    Option (TopologyHint × Bool) :=
  (mergeFilteredHints numaNodes (filterProvidersHints providersHints)).map fun hint =>
    (hint.toTopologyHint, hint.preferred)

/-! ## The order of merged hints -/

namespace MergedHint

/-- The rank of a merged hint: preferred first, then fewer NUMA nodes, then a lower mask. -/
def score (h : MergedHint) : Bool ×ₗ ℕ ×ₗ ℕ :=
  toLex (!h.preferred, toLex (h.numaNodeAffinity.count, h.numaNodeAffinity.val))

theorem score_injective : Function.Injective score := by
  intro a b h
  simp only [score, toLex_inj, Prod.mk.injEq, Bool.not_inj_iff] at h
  obtain ⟨hp, -, hv⟩ := h
  cases a
  cases b
  cases hp
  congr
  exact BitMask.ext hv

instance : LinearOrder MergedHint := LinearOrder.lift' score score_injective

theorem lt_iff_score {a b : MergedHint} : a < b ↔ a.score < b.score := Iff.rfl

theorem le_iff_score {a b : MergedHint} : a ≤ b ↔ a.score ≤ b.score := Iff.rfl

/-- The order of merged hints: preferred before not preferred, then `IsNarrowerThan`. -/
theorem lt_iff_preferred {a b : MergedHint} :
    a < b ↔ (a.preferred = true ∧ b.preferred = false) ∨
      (a.preferred = b.preferred ∧ a.numaNodeAffinity.isNarrowerThan b.numaNodeAffinity = true) := by
  rw [lt_iff_score, score, score, Prod.Lex.toLex_lt_toLex, Prod.Lex.toLex_lt_toLex,
    isNarrowerThan_iff]
  cases a.preferred <;> cases b.preferred <;> simp

end MergedHint

/-! ## What the loop computes -/

theorem iterate_eq_foldl {σ : Type*} (callback : σ → List TopologyHint → σ) :
    ∀ (L : List (List TopologyHint)) (accum : List TopologyHint) (s : σ),
      iterate callback L accum s = (Best.choices L).foldl (fun s p => callback s (accum ++ p)) s
  | [], accum, s => by simp [iterate, Best.choices]
  | hints :: rest, accum, s => by
    simp only [iterate, Best.choices, List.foldl_flatMap, List.foldl_map]
    congr
    funext s hint
    rw [iterate_eq_foldl callback rest]
    simp

/-- The callback keeps the lower of the best and a merged hint with a non-empty mask. -/
theorem mergeCallback_eq (defaultAffinity : BitMask) (bestHint : MergedHint)
    (permutation : List TopologyHint) :
    mergeCallback defaultAffinity bestHint permutation =
      if (mergePermutation defaultAffinity permutation).numaNodeAffinity.count = 0 then bestHint
      else Best.keepLower MergedHint.score bestHint (mergePermutation defaultAffinity permutation) := by
  unfold mergeCallback Best.keepLower
  dsimp only
  split
  · rfl
  -- the three tests of the callback are the order on merged hints
  generalize mergePermutation defaultAffinity permutation = m
  have key : m.score < bestHint.score ↔ (m.preferred = true ∧ bestHint.preferred = false) ∨
      (m.preferred = bestHint.preferred ∧
        m.numaNodeAffinity.isNarrowerThan bestHint.numaNodeAffinity = true) :=
    MergedHint.lt_iff_preferred
  rw [if_congr key rfl rfl]
  cases m.preferred <;> cases bestHint.preferred <;>
    cases m.numaNodeAffinity.isNarrowerThan bestHint.numaNodeAffinity <;> rfl

/-- The merged hints with a non-empty mask, in the order of the loop. -/
def candidateList (defaultAffinity : BitMask) (filteredHints : List (List TopologyHint)) :
    List MergedHint :=
  ((Best.choices filteredHints).map (mergePermutation defaultAffinity)).filter
    fun h => h.numaNodeAffinity.count ≠ 0

/-- **`mergeFilteredHints` keeps the lowest candidate**, starting from the machine's mask. -/
theorem mergeFilteredHints_eq {numaNodes : List ℤ} {defaultAffinity : BitMask}
    (hdef : newBitMask numaNodes = some defaultAffinity) (filteredHints : List (List TopologyHint)) :
    mergeFilteredHints numaNodes filteredHints =
      some ((candidateList defaultAffinity filteredHints).foldl (Best.keepLower MergedHint.score)
        ⟨defaultAffinity, false⟩) := by
  unfold mergeFilteredHints iterateAllProviderTopologyHints candidateList
  rw [hdef]
  dsimp only
  rw [iterate_eq_foldl, List.foldl_filter, List.foldl_map]
  congr
  funext best p
  rw [List.nil_append, mergeCallback_eq]
  by_cases h : (mergePermutation defaultAffinity p).numaNodeAffinity.count = 0 <;> simp [h]

/-! ## The candidates -/

/-- The merged hints of every choice of one hint per provider and resource whose mask is not
empty. -/
def candidates (defaultAffinity : BitMask) (filteredHints : List (List TopologyHint)) :
    Set MergedHint :=
  {h | ∃ permutation, List.Forall₂ (· ∈ ·) permutation filteredHints ∧
    mergePermutation defaultAffinity permutation = h ∧ h.numaNodeAffinity.count ≠ 0}

theorem mem_candidateList {defaultAffinity : BitMask} {filteredHints : List (List TopologyHint)}
    {h : MergedHint} :
    h ∈ candidateList defaultAffinity filteredHints ↔ h ∈ candidates defaultAffinity filteredHints := by
  simp only [candidateList, candidates, List.mem_filter, List.mem_map, Best.mem_choices,
    Set.mem_ofPred_eq, decide_eq_true_eq]
  constructor
  · rintro ⟨⟨p, hp, rfl⟩, hc⟩
    exact ⟨p, hp, rfl, hc⟩
  · rintro ⟨p, hp, rfl, hc⟩
    exact ⟨⟨p, hp, rfl⟩, hc⟩

/-- Every merged hint is at least as good as the machine's mask not preferred: its mask is a
part of the machine's. -/
theorem mergePermutation_le (defaultAffinity : BitMask) (permutation : List TopologyHint) :
    mergePermutation defaultAffinity permutation ≤ ⟨defaultAffinity, false⟩ := by
  have hsub : ∀ i, (mergePermutation defaultAffinity permutation).numaNodeAffinity.val.testBit i →
      defaultAffinity.val.testBit i := by
    intro i hi
    simp only [mergePermutation, testBit_and, Bool.and_eq_true] at hi
    exact hi.1
  rw [MergedHint.le_iff_score, MergedHint.score, MergedHint.score, Prod.Lex.toLex_le_toLex]
  cases (mergePermutation defaultAffinity permutation).preferred
  · refine .inr ⟨rfl, ?_⟩
    by_cases heq : (mergePermutation defaultAffinity permutation).numaNodeAffinity = defaultAffinity
    · rw [heq]
    · have hlt := Bitset.popcount_lt_of_testBit_imp hsub fun h => heq (BitMask.ext h)
      exact le_of_lt (Prod.Lex.toLex_lt_toLex.mpr (.inl hlt))
  · exact .inl Bool.false_lt_true

/-- **What `mergeFilteredHints` returns**: the least candidate when there is one, and the
machine's mask not preferred when there is none. -/
theorem mergeFilteredHints_spec {numaNodes : List ℤ} {defaultAffinity : BitMask}
    (hdef : newBitMask numaNodes = some defaultAffinity) (filteredHints : List (List TopologyHint)) :
    ∃ bestHint, mergeFilteredHints numaNodes filteredHints = some bestHint ∧
      ((candidates defaultAffinity filteredHints).Nonempty →
        IsLeast (candidates defaultAffinity filteredHints) bestHint) ∧
      (candidates defaultAffinity filteredHints = ∅ → bestHint = ⟨defaultAffinity, false⟩) := by
  refine ⟨_, mergeFilteredHints_eq hdef filteredHints, ?_, ?_⟩
  all_goals
    have hmem := Best.foldl_keepLower_mem MergedHint.score ⟨defaultAffinity, false⟩
      (candidateList defaultAffinity filteredHints)
    have hle := Best.foldl_keepLower_le MergedHint.score ⟨defaultAffinity, false⟩
      (candidateList defaultAffinity filteredHints)
    generalize (candidateList defaultAffinity filteredHints).foldl _ _ = bestHint at hmem hle
  · rintro ⟨c, hc⟩
    refine ⟨?_, fun y hy => hle y (List.mem_cons_of_mem _ (mem_candidateList.mpr hy))⟩
    rcases List.mem_cons.mp hmem with rfl | hmem
    · -- the start is no better than any candidate, so it is one
      have hc' := hc
      obtain ⟨p, -, rfl, -⟩ := hc'
      have h₁ : mergePermutation defaultAffinity p ≤ ⟨defaultAffinity, false⟩ :=
        mergePermutation_le defaultAffinity p
      have h₂ := hle _ (List.mem_cons_of_mem _ (mem_candidateList.mpr hc))
      rw [le_antisymm h₁ h₂] at hc
      exact hc
    · exact mem_candidateList.mp hmem
  · intro hempty
    rcases List.mem_cons.mp hmem with rfl | hmem
    · rfl
    · have := mem_candidateList.mp hmem
      rw [hempty] at this
      exact absurd this (Set.notMem_empty _)

/-! ## The order of providers and resources does not matter -/

theorem mergePermutation_perm (defaultAffinity : BitMask) {p p' : List TopologyHint}
    (h : p.Perm p') : mergePermutation defaultAffinity p = mergePermutation defaultAffinity p' := by
  have hmask : (defaultAffinity.and (p.map fun hint => hint.numaNodeAffinity.getD defaultAffinity)) =
      defaultAffinity.and (p'.map fun hint => hint.numaNodeAffinity.getD defaultAffinity) := by
    refine BitMask.ext (Nat.eq_of_testBit_eq fun n => ?_)
    rw [testBit_and, testBit_and, (h.map _).all_eq]
  simp only [mergePermutation, hmask, h.all_eq]

theorem candidates_perm (defaultAffinity : BitMask) {L L' : List (List TopologyHint)}
    (h : L.Perm L') : candidates defaultAffinity L = candidates defaultAffinity L' := by
  have sub : ∀ {L L' : List (List TopologyHint)}, L.Perm L' →
      candidates defaultAffinity L ⊆ candidates defaultAffinity L' := by
    rintro L L' h _ ⟨p, hp, rfl, hc⟩
    obtain ⟨p', hp', hperm⟩ := Best.Forall₂.exists_perm h hp
    exact ⟨p', hp', (mergePermutation_perm defaultAffinity hperm).symm, hc⟩
  exact Set.Subset.antisymm (sub h) (sub h.symm)

theorem mergeFilteredHints_perm (numaNodes : List ℤ) {L L' : List (List TopologyHint)}
    (h : L.Perm L') : mergeFilteredHints numaNodes L = mergeFilteredHints numaNodes L' := by
  cases hdef : newBitMask numaNodes with
  | none => simp [mergeFilteredHints, hdef]
  | some defaultAffinity =>
    rw [mergeFilteredHints_eq hdef, mergeFilteredHints_eq hdef, Option.some.injEq]
    refine Best.foldl_keepLower_congr MergedHint.score_injective fun y => ?_
    rw [List.mem_cons, List.mem_cons, mem_candidateList, mem_candidateList, candidates_perm _ h]

theorem filterProvidersHints_perm {providersHints mid providersHints' :
    List (List (Option (List TopologyHint)))}
    (h₁ : List.Forall₂ List.Perm providersHints mid) (h₂ : mid.Perm providersHints') :
    (filterProvidersHints providersHints).Perm (filterProvidersHints providersHints') := by
  refine List.Perm.trans ?_ (h₂.flatMap_right _)
  clear h₂
  induction h₁ with
  | nil => exact List.Perm.refl _
  | @cons hints hints' _ _ hperm _ ih =>
    simp only [filterProvidersHints, List.flatMap_cons] at ih ⊢
    refine List.Perm.append ?_ ih
    rw [hperm.length_eq]
    split
    · exact List.Perm.refl _
    · exact hperm.map _

/-! ## The policies -/

theorem merge_isLeast {numaNodes : List ℤ} {defaultAffinity : BitMask}
    (hdef : newBitMask numaNodes = some defaultAffinity)
    (providersHints : List (List (Option (List TopologyHint)))) :
    ∃ bestHint : MergedHint,
      restrictedMerge numaNodes providersHints = some (bestHint.toTopologyHint, bestHint.preferred) ∧
      bestEffortMerge numaNodes providersHints = some (bestHint.toTopologyHint, true) ∧
      ((candidates defaultAffinity (filterProvidersHints providersHints)).Nonempty →
        IsLeast (candidates defaultAffinity (filterProvidersHints providersHints)) bestHint) ∧
      (candidates defaultAffinity (filterProvidersHints providersHints) = ∅ →
        bestHint = ⟨defaultAffinity, false⟩) ∧
      ∀ mid providersHints', List.Forall₂ List.Perm providersHints mid →
        mid.Perm providersHints' →
        restrictedMerge numaNodes providersHints' = restrictedMerge numaNodes providersHints ∧
          bestEffortMerge numaNodes providersHints' = bestEffortMerge numaNodes providersHints := by
  obtain ⟨bestHint, hmerge, hleast, hempty⟩ :=
    mergeFilteredHints_spec hdef (filterProvidersHints providersHints)
  refine ⟨bestHint, ?_, ?_, hleast, hempty, fun mid providersHints' h₁ h₂ => ?_⟩
  · simp [restrictedMerge, hmerge]
  · simp [bestEffortMerge, hmerge]
  · have hperm := mergeFilteredHints_perm numaNodes (filterProvidersHints_perm h₁ h₂)
    exact ⟨by simp only [restrictedMerge, hperm], by simp only [bestEffortMerge, hperm]⟩

/-- Two NUMA nodes and one provider whose only resource may take node 0, preferred, or both,
not preferred. -/
theorem merge_isLeast_two_nodes :
    ∃ bestHint : MergedHint,
      restrictedMerge [0, 1] [[some [⟨some ⟨1, by norm_num⟩, true⟩, ⟨some ⟨3, by norm_num⟩, false⟩]]] =
        some (bestHint.toTopologyHint, bestHint.preferred) ∧
      bestEffortMerge [0, 1] [[some [⟨some ⟨1, by norm_num⟩, true⟩, ⟨some ⟨3, by norm_num⟩, false⟩]]] =
        some (bestHint.toTopologyHint, true) ∧
      ((candidates ⟨3, by norm_num⟩ (filterProvidersHints
          [[some [⟨some ⟨1, by norm_num⟩, true⟩, ⟨some ⟨3, by norm_num⟩, false⟩]]])).Nonempty →
        IsLeast (candidates ⟨3, by norm_num⟩ (filterProvidersHints
          [[some [⟨some ⟨1, by norm_num⟩, true⟩, ⟨some ⟨3, by norm_num⟩, false⟩]]])) bestHint) ∧
      (candidates ⟨3, by norm_num⟩ (filterProvidersHints
          [[some [⟨some ⟨1, by norm_num⟩, true⟩, ⟨some ⟨3, by norm_num⟩, false⟩]]]) = ∅ →
        bestHint = ⟨⟨3, by norm_num⟩, false⟩) ∧
      ∀ mid providersHints', List.Forall₂ List.Perm
          [[some [⟨some ⟨1, by norm_num⟩, true⟩, ⟨some ⟨3, by norm_num⟩, false⟩]]] mid →
        mid.Perm providersHints' →
        restrictedMerge [0, 1] providersHints' = restrictedMerge [0, 1]
            [[some [⟨some ⟨1, by norm_num⟩, true⟩, ⟨some ⟨3, by norm_num⟩, false⟩]]] ∧
          bestEffortMerge [0, 1] providersHints' = bestEffortMerge [0, 1]
            [[some [⟨some ⟨1, by norm_num⟩, true⟩, ⟨some ⟨3, by norm_num⟩, false⟩]]] :=
  merge_isLeast (by decide) _

/-- A hint outside the machine's NUMA nodes. On a machine with node 0 alone, a provider's only
hint is node 1, preferred: the AND of the hints is node 1, but `Merge` also ANDs in the machine's
mask, finds nothing left, and returns node 0 not preferred, which `restricted` refuses. With a
NUMA node 64, `NewBitMask` fails and `Merge` panics. -/
theorem restrictedMerge_hint_outside_machine :
    restrictedMerge [0] [[some [⟨some ⟨2, by norm_num⟩, true⟩]]] =
        some (⟨some ⟨1, by norm_num⟩, false⟩, false) ∧
      restrictedMerge [64] [] = none := by
  decide

end Kubernetes.TopologyManager
