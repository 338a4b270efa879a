import Mathlib
import Kubernetes.CPUManager.Invariants
import Kubernetes.CPUManager.Assignment
import Kubernetes.CPUManager.CPUSet

/-!
# The static policy's topology hints, and the allocation they promise

`GetTopologyHints` (`policy_static.go`) offers the topology manager a hint for each mask of NUMA
nodes on which a new container of a Guaranteed pod would find its CPUs: every reusable CPU of
the pod must be on the mask, and with the allocatable CPUs on it there must be as many as the
container requests. Among them, the hints of fewest nodes over the masks whose CPUs could hold
the request at all are preferred (`generateCPUTopologyHints`). `Allocate` then takes as many CPUs
as it can on the mask the topology manager settled on (`allocateCPUs`).

The hints and the allocation count the same CPUs only when no reusable CPU is also in the shared
pool. A pod whose containers were removed keeps its reusable CPUs in `cpusToReuse` while they go
back to the pool: the hints count them twice, and `Allocate` on such a hint's mask takes CPUs
off it (`getTopologyHints_counts_reusable_twice`). Without that overlap, the mask of every hint
holds the container's CPUs, `Allocate` takes them all there, and a hint is preferred exactly when
no mask with fewer nodes has CPUs enough (`getTopologyHints_allocate`), for the `takeByTopology`
of `cpu_assignment.go` (`takeByTopologyOf`).

The masks are those `IterateBitMasks` enumerates, the non-empty sublists of the NUMA nodes
(`BitMask.mem_iterateBitMasks`); the callback's running minimum is `Best.keepLower` over the
masks whose CPUs hold the request (`foldlM_hintsCallback_eq_some`).
-/

namespace Kubernetes.CPUManager

open TopologyManager

namespace CPUTopology

/-- `CPUDetails[cpu].NUMANodeID`: a CPU missing from the map reads the zero `CPUInfo`. -/
def numaNodeOf (topology : CPUTopology) (cpu : ℕ) : ℤ :=
  if cpu ∈ topology.cpus then topology.numaNodeID cpu else 0

/-- `CPUDetails.NUMANodes()`. -/
def numaNodes (topology : CPUTopology) : Finset ℤ := topology.cpus.image topology.numaNodeID

/-- `CPUDetails.CPUsInNUMANodes(ids...)`, on a list of NUMA nodes. -/
def cpusInNUMANodeList (topology : CPUTopology) (ids : List ℤ) : Finset ℕ :=
  ids.foldl (fun cpus numaNodeID => cpus ∪ topology.cpusInNUMANodes numaNodeID) ∅

theorem numaNodeOf_of_mem {topology : CPUTopology} {cpu : ℕ} (h : cpu ∈ topology.cpus) :
    topology.numaNodeOf cpu = topology.numaNodeID cpu := if_pos h

@[simp] theorem mem_cpusInNUMANodeList {topology : CPUTopology} {ids : List ℤ} {cpu : ℕ} :
    cpu ∈ topology.cpusInNUMANodeList ids ↔
      cpu ∈ topology.cpus ∧ topology.numaNodeID cpu ∈ ids := by
  simp [cpusInNUMANodeList, Go.mem_foldl_union, cpusInNUMANodes, and_comm]

end CPUTopology

namespace StaticPolicy

/-! ## `generateCPUTopologyHints` and `GetTopologyHints` -/

/-- The callback `generateCPUTopologyHints` passes to `IterateBitMasks`, on one mask, with the
state it closes over: the hints so far, none preferred yet, and `minAffinitySize`. A `nil` mask
panics at `mask.GetBits()`, `none` here. -/
def hintsCallback (p : StaticPolicy) (availableCPUs reusableCPUs : Finset ℕ) (request : ℕ)
    (state : List MergedHint × ℕ) : Option BitMask → Option (List MergedHint × ℕ)
  | none => none
  | some mask =>
    let cpusInMask := (p.topology.cpusInNUMANodeList mask.getBits).card
    let minAffinitySize :=
      if cpusInMask ≥ request ∧ mask.count < state.2 then mask.count else state.2
    -- a reusable CPU off the mask: the callback returns before counting
    if ∃ c ∈ reusableCPUs, mask.isSet (p.topology.numaNodeOf c) = false then
      some (state.1, minAffinitySize)
    else
      let numMatching := reusableCPUs.card +
        (availableCPUs.filter fun c => mask.isSet (p.topology.numaNodeOf c)).card
      if numMatching < request then some (state.1, minAffinitySize)
      else some (state.1 ++ [⟨mask, false⟩], minAffinitySize)

/-- `generateCPUTopologyHints(availableCPUs, reusableCPUs, request)`: a hint for each mask of the
topology's NUMA nodes the callback keeps, preferred when it has `minAffinitySize` nodes. -/
def generateCPUTopologyHints (p : StaticPolicy) (availableCPUs reusableCPUs : Finset ℕ)
    (request : ℕ) : Option (List TopologyHint) :=
  -- `minAffinitySize` starts with all the NUMA nodes
  ((BitMask.iterateBitMasks (toSlice p.topology.numaNodes)).foldlM
      (p.hintsCallback availableCPUs reusableCPUs request) ([], p.topology.numaNodes.card)).map
    fun state => state.1.map fun hint =>
      (if hint.numaNodeAffinity.count = state.2 then { hint with preferred := true }
        else hint).toTopologyHint

/-- `GetTopologyHints(s, pod, container)`: the provider's map as the list of its values, `[]` for
the `nil` map and the `cpu` hints otherwise; `none` for a panic. A container that has its CPUs
already gets the hints of those CPUs, or none that can be met if their number is not the one
requested; a new one the hints of the allocatable CPUs and its pod's reusable ones. -/
def getTopologyHints (p : StaticPolicy) (s : State) (pod : Pod) (container : Container) :
    Option (List (Option (List TopologyHint))) :=
  let requested := guaranteedCPUs pod container
  if requested = 0 then some []
  else
    match s.getCPUSet pod.uid container.name with
    | some allocated =>
      if allocated.card ≠ requested then some [some []]
      else (p.generateCPUTopologyHints allocated ∅ requested).map fun cpuHints => [some cpuHints]
    | none =>
      let available := p.getAllocatableCPUs s
      let reusable := (p.cpusToReuse.lookup pod.uid).getD ∅
      (p.generateCPUTopologyHints available reusable requested).map fun cpuHints => [some cpuHints]

end StaticPolicy

/-- `takeByTopology` of `cpu_assignment.go` on the topology `topo`, as the policy's parameter: it
takes only CPUs it is given (`takeByTopology_eq_ok`). -/
def takeByTopologyOf (rt : GoRuntime) (topo : Topology.CPUTopology) : TakeByTopology where
  take _ availableCPUs numCPUs := takeByTopology rt topo availableCPUs numCPUs
  take_subset h :=
    (takeByTopology_eq_ok rt topo _ _ (Nat.cast_nonneg _) h).1.trans Finset.inter_subset_right

namespace StaticPolicy

/-! ## The masks the callback keeps, and the least of them -/

section Callback

variable (p : StaticPolicy) (availableCPUs reusableCPUs : Finset ℕ) (request : ℕ)

/-- The masks the callback makes hints of: every reusable CPU on the mask, and with the available
CPUs on it, as many as requested. -/
def Fits (mask : BitMask) : Prop :=
  (∀ c ∈ reusableCPUs, mask.isSet (p.topology.numaNodeOf c) = true) ∧
    request ≤ reusableCPUs.card +
      (availableCPUs.filter fun c => mask.isSet (p.topology.numaNodeOf c)).card

instance : DecidablePred (p.Fits availableCPUs reusableCPUs request) := fun _ =>
  inferInstanceAs (Decidable (_ ∧ _))

/-- The `minAffinitySize` the callback ends with over the masks `ms` from `init`: the least of
`init` and the sizes of the masks whose CPUs hold the request. -/
def minAffinityOf (ms : List BitMask) (init : ℕ) : ℕ :=
  ((ms.filter fun m => request ≤ (p.topology.cpusInNUMANodeList m.getBits).card).map
    BitMask.count).foldl (Best.keepLower id) init

theorem hintsCallback_some (state : List MergedHint × ℕ) (mask : BitMask) :
    p.hintsCallback availableCPUs reusableCPUs request state (some mask) =
      some ((if p.Fits availableCPUs reusableCPUs request mask then state.1 ++ [⟨mask, false⟩]
          else state.1),
        if request ≤ (p.topology.cpusInNUMANodeList mask.getBits).card then
          Best.keepLower id state.2 mask.count else state.2) := by
  have hmin : (if (p.topology.cpusInNUMANodeList mask.getBits).card ≥ request ∧
        mask.count < state.2 then mask.count else state.2) =
      if request ≤ (p.topology.cpusInNUMANodeList mask.getBits).card then
        Best.keepLower id state.2 mask.count else state.2 := by
    simp only [Best.keepLower, id]
    split_ifs <;> omega
  unfold hintsCallback
  dsimp only
  rw [hmin]
  by_cases hfits : p.Fits availableCPUs reusableCPUs request mask
  · have hon : ¬ ∃ c ∈ reusableCPUs, mask.isSet (p.topology.numaNodeOf c) = false := by
      simpa using hfits.1
    rw [if_neg hon, if_neg (not_lt.mpr hfits.2), if_pos hfits]
  · rw [if_neg hfits]
    by_cases hoff : ∃ c ∈ reusableCPUs, mask.isSet (p.topology.numaNodeOf c) = false
    · rw [if_pos hoff]
    · have hfew : reusableCPUs.card +
          (availableCPUs.filter fun c => mask.isSet (p.topology.numaNodeOf c)).card < request :=
        not_le.mp fun h => hfits ⟨by simpa using hoff, h⟩
      rw [if_neg hoff, if_pos hfew]

/-- **The loop over the masks**, in closed form: it fails on a `nil` mask, and otherwise adds a
hint for each mask that fits and keeps the least size of the masks that hold the request. -/
theorem foldlM_hintsCallback_eq_some {masks : List (Option BitMask)} {state r : List MergedHint × ℕ}
    (h : masks.foldlM (p.hintsCallback availableCPUs reusableCPUs request) state = some r) :
    ∃ ms : List BitMask, masks = ms.map some ∧
      r.1 = state.1 ++ (ms.filter (p.Fits availableCPUs reusableCPUs request ·)).map (⟨·, false⟩) ∧
      r.2 = p.minAffinityOf request ms state.2 := by
  induction masks generalizing state with
  | nil =>
    cases h
    exact ⟨[], rfl, by simp, rfl⟩
  | cons x masks ih =>
    rw [List.foldlM_cons] at h
    cases x with
    | none => simp [hintsCallback] at h
    | some mask =>
      rw [hintsCallback_some] at h
      obtain ⟨ms, rfl, h₁, h₂⟩ := ih h
      refine ⟨mask :: ms, rfl, ?_, ?_⟩
      · rw [h₁]
        by_cases hfits : p.Fits availableCPUs reusableCPUs request mask <;> simp [hfits]
      · rw [h₂]
        unfold minAffinityOf
        by_cases hq : request ≤ (p.topology.cpusInNUMANodeList mask.getBits).card <;>
          simp [hq]

theorem minAffinityOf_le_count {ms : List BitMask} {init : ℕ} {m : BitMask} (hm : m ∈ ms)
    (hq : request ≤ (p.topology.cpusInNUMANodeList m.getBits).card) :
    p.minAffinityOf request ms init ≤ m.count :=
  Best.foldl_keepLower_le id init _ m.count
    (List.mem_cons_of_mem _ (List.mem_map_of_mem (List.mem_filter.mpr ⟨hm, by simpa using hq⟩)))

theorem minAffinityOf_le_init (ms : List BitMask) (init : ℕ) :
    p.minAffinityOf request ms init ≤ init :=
  Best.foldl_keepLower_le id init _ init List.mem_cons_self

theorem minAffinityOf_mem (ms : List BitMask) (init : ℕ) :
    p.minAffinityOf request ms init = init ∨ ∃ m ∈ ms,
      request ≤ (p.topology.cpusInNUMANodeList m.getBits).card ∧
        p.minAffinityOf request ms init = m.count := by
  rcases List.mem_cons.mp (Best.foldl_keepLower_mem id init _) with h | h
  · exact .inl h
  · obtain ⟨m, hm, hcount⟩ := List.mem_map.mp h
    obtain ⟨hm, hq⟩ := List.mem_filter.mp hm
    exact .inr ⟨m, hm, by simpa using hq, hcount.symm⟩

/-- What `generateCPUTopologyHints` returns: a hint for each enumerated mask that fits, preferred
when its size is the least. -/
theorem generateCPUTopologyHints_eq_some {hints : List TopologyHint}
    (h : p.generateCPUTopologyHints availableCPUs reusableCPUs request = some hints) :
    ∃ ms : List BitMask, BitMask.iterateBitMasks (toSlice p.topology.numaNodes) = ms.map some ∧
      hints = (ms.filter (p.Fits availableCPUs reusableCPUs request ·)).map fun m =>
        ⟨some m, decide (m.count = p.minAffinityOf request ms p.topology.numaNodes.card)⟩ := by
  unfold generateCPUTopologyHints at h
  obtain ⟨r, hr, rfl⟩ := Option.map_eq_some_iff.mp h
  obtain ⟨ms, hms, h₁, h₂⟩ := foldlM_hintsCallback_eq_some p availableCPUs reusableCPUs request hr
  refine ⟨ms, hms, ?_⟩
  rw [h₁, h₂, List.nil_append, List.map_map]
  refine List.map_congr_left fun m _ => ?_
  by_cases hmin : m.count = p.minAffinityOf request ms p.topology.numaNodes.card <;>
    simp [hmin, MergedHint.toTopologyHint]

end Callback

section Masks

variable {p : StaticPolicy} {request : ℕ} {ms : List BitMask}

/-- The enumerated masks are those of the non-empty sublists of the NUMA nodes. -/
theorem mem_masks (hms : BitMask.iterateBitMasks (toSlice p.topology.numaNodes) = ms.map some)
    {m : BitMask} : m ∈ ms ↔ ∃ l, l.Sublist (toSlice p.topology.numaNodes) ∧ l ≠ [] ∧
      BitMask.newBitMask l = some m := by
  constructor
  · intro hm
    have hsome : some m ∈ BitMask.iterateBitMasks (toSlice p.topology.numaNodes) :=
      hms ▸ List.mem_map_of_mem hm
    obtain ⟨l, hl, hne, heq⟩ := BitMask.mem_iterateBitMasks.mp hsome
    exact ⟨l, hl, hne, heq.symm⟩
  · rintro ⟨l, hl, hne, heq⟩
    have hsome : some m ∈ ms.map some :=
      hms ▸ BitMask.mem_iterateBitMasks.mpr ⟨l, hl, hne, heq.symm⟩
    simpa using hsome

theorem count_le_card_numaNodes
    (hms : BitMask.iterateBitMasks (toSlice p.topology.numaNodes) = ms.map some) {m : BitMask}
    (hm : m ∈ ms) : m.count ≤ p.topology.numaNodes.card := by
  obtain ⟨l, hl, -, hnew⟩ := (mem_masks hms).mp hm
  rw [BitMask.count_of_newBitMask hnew ((toSlice_nodup _).sublist hl)]
  simpa [toSlice_eq_sort] using hl.length_le

/-- **No mask whose CPUs hold the request has fewer nodes than the callback's minimum**: its NUMA
nodes of the topology make an enumerated mask with the same CPUs and no more nodes. -/
theorem minAffinityOf_le_of_le_card
    (hms : BitMask.iterateBitMasks (toSlice p.topology.numaNodes) = ms.map some)
    (hpos : 0 < request) {m' : BitMask}
    (hq : request ≤ (p.topology.cpusInNUMANodeList m'.getBits).card) (init : ℕ) :
    p.minAffinityOf request ms init ≤ m'.count := by
  set l := (toSlice p.topology.numaNodes).filter (· ∈ m'.getBits) with hl
  have hnodup : l.Nodup := (toSlice_nodup _).filter _
  have hmem : ∀ b, b ∈ l ↔ b ∈ p.topology.numaNodes ∧ b ∈ m'.getBits := by
    simp [hl]
  have hne : l ≠ [] := by
    obtain ⟨cpu, hcpu⟩ := Finset.card_pos.mp (lt_of_lt_of_le hpos hq)
    rw [CPUTopology.mem_cpusInNUMANodeList] at hcpu
    exact List.ne_nil_of_mem ((hmem _).mpr
      ⟨Finset.mem_image_of_mem _ hcpu.1, hcpu.2⟩)
  obtain ⟨mT, hmT⟩ := Option.isSome_iff_exists.mp ((BitMask.add_isSome_iff _ l).mpr fun b hb =>
    (BitMask.mem_getBits.mp ((hmem b).mp hb).2).imp_right And.left)
  have hmTms : mT ∈ ms := (mem_masks hms).mpr ⟨l, List.filter_sublist, hne, hmT⟩
  have hcpus : p.topology.cpusInNUMANodeList mT.getBits =
      p.topology.cpusInNUMANodeList m'.getBits := by
    ext cpu
    simp only [CPUTopology.mem_cpusInNUMANodeList, BitMask.mem_getBits_of_newBitMask hmT, hmem]
    constructor
    · exact fun h => ⟨h.1, h.2.2⟩
    · exact fun h => ⟨h.1, Finset.mem_image_of_mem _ h.1, h.2⟩
  calc p.minAffinityOf request ms init
      ≤ mT.count := minAffinityOf_le_count p request hmTms (hcpus ▸ hq)
    _ = l.toFinset.card := by
      rw [BitMask.count_of_newBitMask hmT hnodup, List.toFinset_card_of_nodup hnodup]
    _ ≤ m'.count := m'.card_le_count fun b hb => ((hmem b).mp (List.mem_toFinset.mp hb)).2

/-- **A hint is preferred exactly when no mask with fewer nodes has CPUs enough.** -/
theorem count_eq_minAffinityOf_iff
    (hms : BitMask.iterateBitMasks (toSlice p.topology.numaNodes) = ms.map some)
    (hpos : 0 < request) {m : BitMask} (hm : m ∈ ms)
    (hq : request ≤ (p.topology.cpusInNUMANodeList m.getBits).card) :
    m.count = p.minAffinityOf request ms p.topology.numaNodes.card ↔
      ∀ m' : BitMask, request ≤ (p.topology.cpusInNUMANodeList m'.getBits).card →
        m.count ≤ m'.count := by
  have hle : p.minAffinityOf request ms p.topology.numaNodes.card ≤ m.count :=
    minAffinityOf_le_count p request hm hq
  constructor
  · intro heq m' hq'
    rw [heq]
    exact minAffinityOf_le_of_le_card hms hpos hq' _
  · intro hleast
    rcases minAffinityOf_mem p request ms p.topology.numaNodes.card with hinit | ⟨m₀, -, hq₀, heq⟩
    · rw [hinit] at hle ⊢
      exact le_antisymm (count_le_card_numaNodes hms hm) hle
    · rw [heq] at hle ⊢
      exact le_antisymm (hleast m₀ hq₀) hle

end Masks

/-! ## `Allocate` on a hint's mask -/

section Allocate

variable {p : StaticPolicy} {s : State} {rt : GoRuntime} {topo : Topology.CPUTopology}

theorem mem_alignedCPUs {allocatableCPUs : Finset ℕ} {numaAffinity : BitMask} {cpu : ℕ} :
    cpu ∈ p.alignedCPUs allocatableCPUs numaAffinity ↔ cpu ∈ allocatableCPUs ∧
      cpu ∈ p.topology.cpus ∧ p.topology.numaNodeID cpu ∈ numaAffinity.getBits := by
  simp [alignedCPUs, Go.mem_foldl_union, CPUTopology.cpusInNUMANodes]
  tauto

/-- With as many CPUs aligned with the mask as requested, `allocateCPUs` takes them all there and
the second `takeByTopology` nothing. -/
theorem allocateCPUs_of_le_aligned (rt : GoRuntime) (htopo : p.topology = topo.toPolicy)
    {numCPUs : ℕ} {numaAffinity : BitMask} {reusableCPUs : Finset ℕ}
    (hn : numCPUs ≤ (p.alignedCPUs (p.getAllocatableCPUs s ∪ reusableCPUs) numaAffinity).card) :
    ∃ result, result ⊆ p.alignedCPUs (p.getAllocatableCPUs s ∪ reusableCPUs) numaAffinity ∧
      result.card = numCPUs ∧
      p.allocateCPUs (takeByTopologyOf rt topo) s numCPUs (some numaAffinity) reusableCPUs =
        (s.setDefaultCPUSet (s.defaultCPUSet \ result), .ok result) := by
  set aligned := p.alignedCPUs (p.getAllocatableCPUs s ∪ reusableCPUs) numaAffinity
  have htopocpus : aligned ⊆ topo.cpuDetails.cpus := fun cpu hcpu => by
    have := (mem_alignedCPUs.mp hcpu).2.1
    rwa [htopo] at this
  have hinter : topo.cpuDetails.cpus ∩ aligned = aligned := Finset.inter_eq_right.mpr htopocpus
  obtain ⟨result, hresult⟩ := (takeByTopology_ok_iff rt topo aligned numCPUs
    (Nat.cast_nonneg _)).mpr (by rw [hinter]; exact_mod_cast hn)
  obtain ⟨hsub, hcard⟩ := takeByTopology_eq_ok rt topo aligned numCPUs (Nat.cast_nonneg _) hresult
  have hcard : result.card = numCPUs := by exact_mod_cast hcard
  have hrest : takeByTopology rt topo ((p.getAllocatableCPUs s ∪ reusableCPUs) \ result)
      ((numCPUs - result.card : ℕ) : ℤ) = .ok ∅ := by
    rw [takeByTopology_eq, if_pos (by omega)]
  refine ⟨result, hsub.trans Finset.inter_subset_right, hcard, ?_⟩
  have hnum : (if numCPUs < aligned.card then numCPUs else aligned.card) = numCPUs := by
    split_ifs <;> omega
  unfold allocateCPUs takeAligned
  simp only [takeByTopologyOf]
  simp only [aligned] at hnum
  rw [hnum, hresult]
  dsimp only
  rw [hrest]
  dsimp only
  rw [Finset.union_empty]

/-- `Allocate` of a new container whose affinity's mask has as many aligned CPUs as it requests:
it gets that many, all aligned. -/
theorem allocate_of_le_aligned (rt : GoRuntime) (htopo : p.topology = topo.toPolicy)
    {pod : Pod} {container : Container} {numaAffinity : BitMask} (hn : 0 < guaranteedCPUs pod container)
    (hnew : s.getCPUSet pod.uid container.name = none)
    (haffinity : (p.affinity pod.uid container.name).numaNodeAffinity = some numaAffinity)
    (hle : guaranteedCPUs pod container ≤ (p.alignedCPUs
      (p.getAllocatableCPUs s ∪ (p.cpusToReuse.lookup pod.uid).getD ∅) numaAffinity).card) :
    ∃ cset, cset ⊆ p.alignedCPUs
        (p.getAllocatableCPUs s ∪ (p.cpusToReuse.lookup pod.uid).getD ∅) numaAffinity ∧
      cset.card = guaranteedCPUs pod container ∧
      p.allocate (takeByTopologyOf rt topo) s pod container =
        (p.updateCPUsToReuse pod container cset,
          (s.setDefaultCPUSet (s.defaultCPUSet \ cset)).setCPUSet pod.uid container.name cset,
          .ok ()) := by
  obtain ⟨cset, hsub, hcard, hok⟩ := allocateCPUs_of_le_aligned rt htopo hle
  refine ⟨cset, hsub, hcard, ?_⟩
  unfold allocate
  dsimp only
  rw [if_neg (by omega), hnew]
  dsimp only
  rw [haffinity, hok]

/-- The CPUs of a fitting mask, reusable and allocatable, are aligned with it: when none is both,
there are as many as requested. -/
theorem le_card_alignedCPUs {availableCPUs reusableCPUs : Finset ℕ} {request : ℕ}
    {mask : BitMask} (hfits : p.Fits availableCPUs reusableCPUs request mask)
    (havailable : availableCPUs ⊆ p.topology.cpus) (hreusable : reusableCPUs ⊆ p.topology.cpus)
    (hdisjoint : Disjoint reusableCPUs availableCPUs) :
    request ≤ (p.alignedCPUs (availableCPUs ∪ reusableCPUs) mask).card := by
  have hon : ∀ c ∈ p.topology.cpus, mask.isSet (p.topology.numaNodeOf c) = true →
      p.topology.numaNodeID c ∈ mask.getBits := fun c hc h => by
    rwa [BitMask.isSet_eq_true, CPUTopology.numaNodeOf_of_mem hc] at h
  have hsub : reusableCPUs ∪ availableCPUs.filter (fun c => mask.isSet (p.topology.numaNodeOf c)) ⊆
      p.alignedCPUs (availableCPUs ∪ reusableCPUs) mask := by
    intro c hc
    rw [mem_alignedCPUs]
    rcases Finset.mem_union.mp hc with hc | hc
    · exact ⟨Finset.mem_union_right _ hc, hreusable hc, hon c (hreusable hc) (hfits.1 c hc)⟩
    · obtain ⟨hc, hset⟩ := Finset.mem_filter.mp hc
      exact ⟨Finset.mem_union_left _ hc, havailable hc, hon c (havailable hc) hset⟩
  calc request
      ≤ reusableCPUs.card +
          (availableCPUs.filter fun c => mask.isSet (p.topology.numaNodeOf c)).card := hfits.2
    _ = (reusableCPUs ∪
          availableCPUs.filter fun c => mask.isSet (p.topology.numaNodeOf c)).card :=
      (Finset.card_union_of_disjoint (hdisjoint.mono_right (Finset.filter_subset _ _))).symm
    _ ≤ _ := Finset.card_le_card hsub

theorem alignedCPUs_subset_cpusInNUMANodeList (allocatableCPUs : Finset ℕ) (mask : BitMask) :
    p.alignedCPUs allocatableCPUs mask ⊆ p.topology.cpusInNUMANodeList mask.getBits :=
  fun _ hc => CPUTopology.mem_cpusInNUMANodeList.mpr (mem_alignedCPUs.mp hc).2

theorem getTopologyHints_of_getCPUSet_eq_none {pod : Pod} {container : Container}
    (hn : 0 < guaranteedCPUs pod container) (hnew : s.getCPUSet pod.uid container.name = none) :
    p.getTopologyHints s pod container =
      (p.generateCPUTopologyHints (p.getAllocatableCPUs s) ((p.cpusToReuse.lookup pod.uid).getD ∅)
        (guaranteedCPUs pod container)).map fun cpuHints => [some cpuHints] := by
  unfold getTopologyHints
  dsimp only
  rw [if_neg (by omega), hnew]

end Allocate

end StaticPolicy

open StaticPolicy

/-- **The hints and `Allocate` agree.** In a state of the invariant, for a new container of a
Guaranteed pod none of whose reusable CPUs is back in the shared pool: every hint
`GetTopologyHints` offers has a mask; `Allocate` with that mask as the container's affinity
gives it exactly the CPUs it requests, all on the mask's NUMA nodes; and the hint is preferred
exactly when every mask whose CPUs could hold the request has at least as many nodes. -/
theorem getTopologyHints_allocate (rt : GoRuntime) (topo : Topology.CPUTopology) {p : StaticPolicy}
    {s : State} (hinv : Inv p s) (htopo : p.topology = topo.toPolicy) {pod : Pod}
    {container : Container} (hn : 0 < guaranteedCPUs pod container)
    (hnew : s.getCPUSet pod.uid container.name = none)
    (hreuse : Disjoint ((p.cpusToReuse.lookup pod.uid).getD ∅) s.defaultCPUSet)
    {cpuHints : List TopologyHint}
    (hhints : p.getTopologyHints s pod container = some [some cpuHints])
    {hint : TopologyHint} (hmem : hint ∈ cpuHints) :
    ∃ m, hint.numaNodeAffinity = some m ∧
      ((p.affinity pod.uid container.name).numaNodeAffinity = some m →
        ∃ cset, p.allocate (takeByTopologyOf rt topo) s pod container =
            (p.updateCPUsToReuse pod container cset,
              (s.setDefaultCPUSet (s.defaultCPUSet \ cset)).setCPUSet pod.uid container.name cset,
              .ok ()) ∧
          cset.card = guaranteedCPUs pod container ∧
          ∀ cpu ∈ cset, p.topology.numaNodeID cpu ∈ m.getBits) ∧
      (hint.preferred = true ↔ ∀ m' : BitMask,
        guaranteedCPUs pod container ≤ (p.topology.cpusInNUMANodeList m'.getBits).card →
          m.count ≤ m'.count) := by
  set reusable := (p.cpusToReuse.lookup pod.uid).getD ∅
  rw [getTopologyHints_of_getCPUSet_eq_none hn hnew] at hhints
  obtain ⟨hints, hgen, hwrap⟩ := Option.map_eq_some_iff.mp hhints
  obtain rfl : hints = cpuHints := by simpa using hwrap
  obtain ⟨ms, hms, rfl⟩ := generateCPUTopologyHints_eq_some p _ _ _ hgen
  obtain ⟨m, hm, rfl⟩ := List.mem_map.mp hmem
  obtain ⟨hm, hfits⟩ := List.mem_filter.mp hm
  replace hfits : p.Fits (p.getAllocatableCPUs s) reusable (guaranteedCPUs pod container) m := by
    simpa using hfits
  have havailable : p.getAllocatableCPUs s ⊆ p.topology.cpus := fun cpu hcpu =>
    (hinv.cover cpu).mpr (.inl (Finset.mem_sdiff.mp hcpu).1)
  have hreusable : reusable ⊆ p.topology.cpus := fun cpu hcpu =>
    (hinv.cover cpu).mpr ((hinv.reuse_getD pod.uid cpu hcpu).1.imp_right fun h => ⟨_, h⟩)
  have hdisjoint : Disjoint reusable (p.getAllocatableCPUs s) :=
    hreuse.mono_right Finset.sdiff_subset
  have hle := le_card_alignedCPUs hfits havailable hreusable hdisjoint
  refine ⟨m, rfl, fun haffinity => ?_, ?_⟩
  · obtain ⟨cset, hsub, hcard, hok⟩ := allocate_of_le_aligned rt htopo hn hnew haffinity hle
    exact ⟨cset, hok, hcard, fun cpu hcpu => (mem_alignedCPUs.mp (hsub hcpu)).2.2⟩
  · have hq := hle.trans (Finset.card_le_card (alignedCPUs_subset_cpusInNUMANodeList _ m))
    simpa using count_eq_minAffinityOf_iff hms hn hm hq

/-- Four CPUs on one socket, one per core: CPUs 0 and 1 on NUMA node 0, CPUs 2 and 3 on node 1. -/
def twoNUMATopology : Topology.CPUTopology where
  numCPUs := 4
  numCores := 4
  numSockets := 1
  cpuDetails := ⟨Finset.range 4, fun cpu => ⟨cpu / 2, 0, cpu⟩⟩

/-- The mask of NUMA node 0. -/
def numaZero : BitMask := ⟨1, by norm_num⟩

/-- The mask of NUMA nodes 0 and 1. -/
def numaBoth : BitMask := ⟨3, by norm_num⟩

/-- The static policy on `twoNUMATopology` with CPU 3 reserved, whose topology manager settles
every container on NUMA node 0. -/
def twoNUMAPolicy : StaticPolicy :=
  ⟨twoNUMATopology.toPolicy, {3}, fun _ _ => ⟨some numaZero, true⟩, ∅⟩

/-- A Guaranteed pod with one app container asking for two CPUs. -/
def twoCPUPod : Pod := ⟨"web", true, [], [⟨"app", some 2000⟩]⟩

theorem newStaticPolicy_twoNUMA :
    newStaticPolicy (takeByTopologyOf GoRuntime.inOrder twoNUMATopology) twoNUMATopology.toPolicy 1
      {3} (fun _ _ => ⟨some numaZero, true⟩) = .ok twoNUMAPolicy := rfl

theorem validateState_twoNUMA :
    twoNUMAPolicy.validateState ⟨∅, ∅⟩ = (⟨∅, Finset.range 4⟩, .ok ()) := rfl

theorem inv_twoNUMA : Inv twoNUMAPolicy ⟨∅, Finset.range 4⟩ := by
  refine inv_of_validateState _ newStaticPolicy_twoNUMA (by decide) (by decide)
    validateState_twoNUMA ?_
  rintro _ _ _ ⟨_, _, hget, -⟩
  simp [State.getCPUSet] at hget

theorem getTopologyHints_allocate_twoNUMA :
    Inv twoNUMAPolicy ⟨∅, Finset.range 4⟩ ∧ twoNUMAPolicy.topology = twoNUMATopology.toPolicy ∧
      0 < guaranteedCPUs twoCPUPod ⟨"app", some 2000⟩ ∧
      State.getCPUSet ⟨∅, Finset.range 4⟩ twoCPUPod.uid "app" = none ∧
      Disjoint ((twoNUMAPolicy.cpusToReuse.lookup twoCPUPod.uid).getD ∅) (Finset.range 4) ∧
      twoNUMAPolicy.getTopologyHints ⟨∅, Finset.range 4⟩ twoCPUPod ⟨"app", some 2000⟩ =
        some [some [⟨some numaZero, true⟩, ⟨some numaBoth, false⟩]] ∧
      (⟨some numaZero, true⟩ : TopologyHint) ∈
        [⟨some numaZero, true⟩, ⟨some numaBoth, false⟩] ∧
      ∃ m, (⟨some numaZero, true⟩ : TopologyHint).numaNodeAffinity = some m ∧
        ((twoNUMAPolicy.affinity twoCPUPod.uid "app").numaNodeAffinity = some m →
          ∃ cset, twoNUMAPolicy.allocate (takeByTopologyOf GoRuntime.inOrder twoNUMATopology)
              ⟨∅, Finset.range 4⟩ twoCPUPod ⟨"app", some 2000⟩ =
              (twoNUMAPolicy.updateCPUsToReuse twoCPUPod ⟨"app", some 2000⟩ cset,
                (State.setDefaultCPUSet ⟨∅, Finset.range 4⟩ (Finset.range 4 \ cset)).setCPUSet
                  twoCPUPod.uid "app" cset, .ok ()) ∧
            cset.card = guaranteedCPUs twoCPUPod ⟨"app", some 2000⟩ ∧
            ∀ cpu ∈ cset, twoNUMAPolicy.topology.numaNodeID cpu ∈ m.getBits) ∧
        ((⟨some numaZero, true⟩ : TopologyHint).preferred = true ↔ ∀ m' : BitMask,
          guaranteedCPUs twoCPUPod ⟨"app", some 2000⟩ ≤
            (twoNUMAPolicy.topology.cpusInNUMANodeList m'.getBits).card → m.count ≤ m'.count) := by
  have hhints : twoNUMAPolicy.getTopologyHints ⟨∅, Finset.range 4⟩ twoCPUPod ⟨"app", some 2000⟩ =
      some [some [⟨some numaZero, true⟩, ⟨some numaBoth, false⟩]] := by decide
  have hreuse : Disjoint ((twoNUMAPolicy.cpusToReuse.lookup twoCPUPod.uid).getD ∅)
      (Finset.range 4) := by decide
  exact ⟨inv_twoNUMA, rfl, by decide, rfl, hreuse, hhints, by decide,
    getTopologyHints_allocate GoRuntime.inOrder twoNUMATopology inv_twoNUMA rfl (by decide) rfl
      hreuse hhints (by decide)⟩

/-- The policy on `twoNUMATopology` that reserves the one CPU `takeByTopology` picks, CPU 0, and
gets no topology hints. -/
def pickedReservePolicy : StaticPolicy :=
  ⟨twoNUMATopology.toPolicy, {0}, fun _ _ => ⟨none, true⟩, ∅⟩

/-- A Guaranteed pod with one init container and one app container, each asking for two CPUs. -/
def webPod : Pod := ⟨"web", true, [⟨"init", some 2000⟩], [⟨"app", some 2000⟩]⟩

theorem run_consistent_twoNUMA :
    newStaticPolicy (takeByTopologyOf GoRuntime.inOrder twoNUMATopology) twoNUMATopology.toPolicy 1
        ∅ (fun _ _ => ⟨none, true⟩) = .ok pickedReservePolicy ∧
      0 < 1 ∧ (∅ : Finset ℕ) ⊆ twoNUMATopology.toPolicy.cpus ∧
      pickedReservePolicy.validateState ⟨∅, ∅⟩ = (⟨∅, Finset.range 4⟩, .ok ()) ∧
      (∀ pod₁ pod₂ cpu, Held ⟨∅, ∅⟩ pod₁ cpu → Held ⟨∅, ∅⟩ pod₂ cpu → pod₁ = pod₂) ∧
      Consistent pickedReservePolicy (run (takeByTopologyOf GoRuntime.inOrder twoNUMATopology)
        (pickedReservePolicy, ⟨∅, Finset.range 4⟩)
        [.allocate webPod ⟨"init", some 2000⟩, .allocate webPod ⟨"app", some 2000⟩]).2 := by
  have hp : newStaticPolicy (takeByTopologyOf GoRuntime.inOrder twoNUMATopology)
      twoNUMATopology.toPolicy 1 ∅ (fun _ _ => ⟨none, true⟩) = .ok pickedReservePolicy := rfl
  have hvalid : pickedReservePolicy.validateState ⟨∅, ∅⟩ = (⟨∅, Finset.range 4⟩, .ok ()) := rfl
  have hpods : ∀ pod₁ pod₂ cpu, Held ⟨∅, ∅⟩ pod₁ cpu → Held ⟨∅, ∅⟩ pod₂ cpu → pod₁ = pod₂ := by
    rintro _ _ _ ⟨_, _, hget, -⟩
    simp [State.getCPUSet] at hget
  exact ⟨hp, by decide, by decide, hvalid, hpods,
    (run_consistent _ hp (by decide) (by decide) hvalid hpods _).1⟩

/-- A Guaranteed pod whose init container asks for two CPUs and its app container for three. -/
def reusePod : Pod := ⟨"reuse", true, [⟨"init", some 2000⟩], [⟨"app", some 3000⟩]⟩

/-- The policy and the state after the init container of `reusePod` got CPUs 0 and 1 and the pod
was removed. -/
def reuseRun : StaticPolicy × State :=
  run (takeByTopologyOf GoRuntime.inOrder twoNUMATopology) (twoNUMAPolicy, ⟨∅, Finset.range 4⟩)
    [.allocate reusePod ⟨"init", some 2000⟩, .removePod "reuse"]

/-- **A removed pod's reusable CPUs are counted twice.** From the state `validateState` fills for
a new policy, the init container of `reusePod` gets CPUs 0 and 1 and the pod is removed: the two
CPUs are back in the pool and still the pod's reusable CPUs. The hints for its app container,
asking for three CPUs, count them once as reusable and once as available, and offer NUMA node 0,
which has two CPUs; `Allocate` on that mask gives the container CPU 2 of node 1 as well. -/
theorem getTopologyHints_counts_reusable_twice :
    newStaticPolicy (takeByTopologyOf GoRuntime.inOrder twoNUMATopology) twoNUMATopology.toPolicy 1
        {3} (fun _ _ => ⟨some numaZero, true⟩) = .ok twoNUMAPolicy ∧
      twoNUMAPolicy.validateState ⟨∅, ∅⟩ = (⟨∅, Finset.range 4⟩, .ok ()) ∧
      reuseRun.2.defaultCPUSet = Finset.range 4 ∧
      reuseRun.1.cpusToReuse.lookup reusePod.uid = some {0, 1} ∧
      reuseRun.1.getTopologyHints reuseRun.2 reusePod ⟨"app", some 3000⟩ =
        some [some [⟨some numaZero, false⟩, ⟨some numaBoth, true⟩]] ∧
      (reuseRun.1.allocate (takeByTopologyOf GoRuntime.inOrder twoNUMATopology) reuseRun.2 reusePod
        ⟨"app", some 3000⟩).2.1.getCPUSet reusePod.uid "app" = some {0, 1, 2} ∧
      twoNUMATopology.toPolicy.numaNodeID 2 ∉ numaZero.getBits :=
  ⟨newStaticPolicy_twoNUMA, validateState_twoNUMA, by decide, by decide, by decide, by decide,
    by decide⟩

end Kubernetes.CPUManager
