import Kubernetes.CPUManager.PolicyStatic

/-!
# The static policy keeps the CPUs partitioned

Along every run of `Allocate` calls and removals of whole pods, the static policy keeps its state
`Consistent`: the pool and the containers' sets together are the topology's CPUs, the pool meets
no container's set, the reserved CPUs stay in the pool, and no CPU is held by two pods; so
`validateState` accepts the state again. An `Allocate` that fails changes nothing.

The argument rests on one more fact, about `cpusToReuse`: a pod's reusable CPUs are in the pool
or held by the pod itself, and none is reserved (`Inv`). That is what makes it safe for
`allocateCPUs` to offer them: the app containers of a pod share CPUs with its init containers,
never with another pod's. Sharing within a pod is also why only whole pods are removed: giving
back one init container's CPUs would put into the pool CPUs an app container still holds.

`validateState` does not check the last item of `Consistent`: it accepts a state in which two
pods hold the same CPU (`validateState_accepts_shared_cpu`), and removing one of them then puts
into the pool a CPU the other still holds. The run theorem `run_consistent` therefore starts from
a state accepted by `validateState` in which no CPU is held by two pods.

* `allocateCPUs_cases`, `allocate_cases`: the ways a call ends.
* `getCPUSet_removePod`, `mem_removePod_defaultCPUSet`: what removing a pod leaves.
* `inv_step`, `inv_run`: the invariant, kept by each event and so by every run.
-/

namespace Kubernetes.CPUManager

open TopologyManager StaticPolicy

/-! ## Who holds a CPU -/

/-- Some container of the pod holds the CPU. -/
def Held (s : State) (podUID : String) (cpu : ℕ) : Prop :=
  ∃ containerName cset, s.getCPUSet podUID containerName = some cset ∧ cpu ∈ cset

@[simp] theorem held_setDefaultCPUSet (s : State) (cset : Finset ℕ) :
    Held (s.setDefaultCPUSet cset) = Held s := rfl

/-- Setting the set of a container that had none: the CPUs held grow by that set. -/
theorem held_setCPUSet {s : State} {podUID containerName : String}
    (hnew : s.getCPUSet podUID containerName = none) (cset : Finset ℕ) (pod : String) (cpu : ℕ) :
    Held (s.setCPUSet podUID containerName cset) pod cpu ↔
      (pod = podUID ∧ cpu ∈ cset) ∨ Held s pod cpu := by
  simp only [Held, State.getCPUSet_setCPUSet]
  constructor
  · rintro ⟨c, cs, h, hcpu⟩
    split_ifs at h with hslot
    · cases h
      exact .inl ⟨hslot.1, hcpu⟩
    · exact .inr ⟨c, cs, h, hcpu⟩
  · rintro (⟨rfl, hcpu⟩ | ⟨c, cs, h, hcpu⟩)
    · exact ⟨containerName, cset, by simp, hcpu⟩
    · refine ⟨c, cs, ?_, hcpu⟩
      rw [if_neg]
      · exact h
      · rintro ⟨rfl, rfl⟩
        simp [hnew] at h

/-! ## Removing containers -/

theorem getCPUSet_removeContainer (s : State) (podUID containerName pod container : String) :
    (removeContainer s podUID containerName).getCPUSet pod container =
      if pod = podUID ∧ container = containerName then none else s.getCPUSet pod container := by
  unfold removeContainer
  split
  · simp [State.getCPUSet_delete]
  · rename_i hnone
    split_ifs with h
    · obtain ⟨rfl, rfl⟩ := h
      exact hnone
    · rfl

theorem defaultCPUSet_removeContainer (s : State) (podUID containerName : String) :
    (removeContainer s podUID containerName).defaultCPUSet =
      s.defaultCPUSet ∪ (s.getCPUSet podUID containerName).getD ∅ := by
  unfold removeContainer
  split <;> simp [*]

/-- The loop of `removePod` over some of the pod's containers: their sets are gone. -/
theorem getCPUSet_foldl_removeContainer (podUID : String) (ks : List String) (s : State)
    (pod container : String) :
    (ks.foldl (fun s c => removeContainer s podUID c) s).getCPUSet pod container =
      if pod = podUID ∧ container ∈ ks then none else s.getCPUSet pod container := by
  induction ks generalizing s with
  | nil => simp
  | cons c ks ih =>
    rw [List.foldl_cons, ih, getCPUSet_removeContainer]
    by_cases hpod : pod = podUID <;> by_cases hc : container = c <;>
      by_cases hks : container ∈ ks <;> simp [hpod, hc, hks]

/-- The loop of `removePod` over some of the pod's containers: their CPUs are in the pool. -/
theorem mem_foldl_removeContainer (podUID : String) (ks : List String) (s : State) (cpu : ℕ) :
    cpu ∈ (ks.foldl (fun s c => removeContainer s podUID c) s).defaultCPUSet ↔
      cpu ∈ s.defaultCPUSet ∨ ∃ c ∈ ks, ∃ cset, s.getCPUSet podUID c = some cset ∧ cpu ∈ cset := by
  induction ks generalizing s with
  | nil => simp
  | cons c ks ih =>
    rw [List.foldl_cons, ih, defaultCPUSet_removeContainer]
    simp only [getCPUSet_removeContainer, true_and, Finset.mem_union, List.mem_cons]
    constructor
    · rintro ((h | h) | ⟨c', hc', cs, hget, hcpu⟩)
      · exact .inl h
      · cases hs : s.getCPUSet podUID c with
        | none => simp [hs] at h
        | some cs => exact .inr ⟨c, .inl rfl, cs, hs, by simpa [hs] using h⟩
      · split_ifs at hget
        exact .inr ⟨c', .inr hc', cs, hget, hcpu⟩
    · rintro (h | ⟨c', hc' | hc', cs, hget, hcpu⟩)
      · exact .inl (.inl h)
      · subst hc'
        exact .inl (.inr (by simp [hget, hcpu]))
      · by_cases hcc : c' = c
        · subst hcc
          exact .inl (.inr (by simp [hget, hcpu]))
        · exact .inr ⟨c', hc', cs, by rw [if_neg hcc]; exact hget, hcpu⟩

/-- A container with a set is among the containers `removePod` visits. -/
theorem mem_keys_of_getCPUSet {s : State} {pod container : String} {cset : Finset ℕ}
    (h : s.getCPUSet pod container = some cset) :
    container ∈ ((s.assignments.lookup pod).map (·.keys)).getD [] := by
  unfold State.getCPUSet at h
  cases hp : s.assignments.lookup pod with
  | none => simp [hp] at h
  | some containers =>
    simp only [hp, Option.bind_some] at h
    simp only [Option.map_some, Option.getD_some]
    exact AList.mem_keys.mpr (AList.lookup_isSome.mp (by simp [h]))

theorem getCPUSet_removePod (s : State) (podUID pod container : String) :
    (removePod s podUID).getCPUSet pod container =
      if pod = podUID then none else s.getCPUSet pod container := by
  unfold removePod
  rw [getCPUSet_foldl_removeContainer]
  by_cases hpod : pod = podUID
  · subst hpod
    rw [if_pos rfl]
    split_ifs with h
    · rfl
    · -- a container the loop skips had no set
      cases hget : s.getCPUSet pod container with
      | none => rfl
      | some cset => exact absurd ⟨rfl, mem_keys_of_getCPUSet hget⟩ h
  · simp [hpod]

theorem held_removePod (s : State) (podUID pod : String) (cpu : ℕ) :
    Held (removePod s podUID) pod cpu ↔ pod ≠ podUID ∧ Held s pod cpu := by
  by_cases hpod : pod = podUID <;> simp [Held, getCPUSet_removePod, hpod]

theorem mem_removePod_defaultCPUSet (s : State) (podUID : String) (cpu : ℕ) :
    cpu ∈ (removePod s podUID).defaultCPUSet ↔ cpu ∈ s.defaultCPUSet ∨ Held s podUID cpu := by
  unfold removePod
  rw [mem_foldl_removeContainer]
  constructor
  · rintro (h | ⟨c, -, cs, hget, hcpu⟩)
    · exact .inl h
    · exact .inr ⟨c, cs, hget, hcpu⟩
  · rintro (h | ⟨c, cs, hget, hcpu⟩)
    · exact .inl h
    · exact .inr ⟨c, mem_keys_of_getCPUSet hget, cs, hget, hcpu⟩

/-! ## What `Allocate` does -/

section Allocate

variable (takeByTopology : TakeByTopology)

@[simp] theorem updateCPUsToReuse_topology (p : StaticPolicy) (pod : Pod) (container : Container)
    (cset : Finset ℕ) : (p.updateCPUsToReuse pod container cset).topology = p.topology := by
  unfold updateCPUsToReuse
  split <;> rfl

@[simp] theorem updateCPUsToReuse_reserved (p : StaticPolicy) (pod : Pod) (container : Container)
    (cset : Finset ℕ) : (p.updateCPUsToReuse pod container cset).reserved = p.reserved := by
  unfold updateCPUsToReuse
  split <;> rfl

/-- After `updateCPUsToReuse` only the pod has reusable CPUs: its old ones and the container's
set, joined or taken apart. -/
theorem lookup_updateCPUsToReuse_forall {p : StaticPolicy} {pod : Pod} {container : Container}
    {cset : Finset ℕ} {P : ℕ → Prop}
    (hold : ∀ cpu ∈ (p.cpusToReuse.lookup pod.uid).getD ∅, P cpu) (hcset : ∀ cpu ∈ cset, P cpu)
    {podUID : String} {reusable : Finset ℕ}
    (h : (p.updateCPUsToReuse pod container cset).cpusToReuse.lookup podUID = some reusable) :
    podUID = pod.uid ∧ ∀ cpu ∈ reusable, P cpu := by
  have hkept : ∀ q, (p.cpusToReuse.keys.foldl (fun cpusToReuse podUID =>
      if podUID != pod.uid then cpusToReuse.erase podUID else cpusToReuse) p.cpusToReuse).lookup q =
        if q = pod.uid then p.cpusToReuse.lookup q else none := by
    intro q
    rw [Go.lookup_foldl_erase (fun podUID => podUID != pod.uid)]
    by_cases hq : q = pod.uid
    · simp [hq]
    · have hne : (q != pod.uid) = true := by simpa using hq
      by_cases hk : q ∈ p.cpusToReuse.keys
      · rw [if_pos ⟨hk, hne⟩, if_neg hq]
      · rw [if_neg (fun h => hk h.1), if_neg hq, AList.lookup_eq_none]
        exact fun h => hk (AList.mem_keys.mpr h)
  unfold updateCPUsToReuse at h
  by_cases hq : podUID = pod.uid
  · subst hq
    refine ⟨rfl, ?_⟩
    split at h <;>
    · simp only [AList.lookup_insert, Option.some.injEq, hkept, if_true] at h
      subst h
      intro cpu hcpu
      simp only [Finset.mem_union, Finset.mem_sdiff] at hcpu
      first
        | exact hcpu.elim (hold cpu) (hcset cpu)
        | exact hold cpu hcpu.1
  · split at h <;>
    · rw [AList.lookup_insert_ne hq, hkept, if_neg hq] at h
      cases h

/-- The allocatable CPUs contain the CPUs aligned with any mask. -/
theorem alignedCPUs_subset (p : StaticPolicy) (allocatableCPUs : Finset ℕ)
    (numaAffinity : BitMask) : p.alignedCPUs allocatableCPUs numaAffinity ⊆ allocatableCPUs := by
  unfold alignedCPUs
  suffices ∀ (ids : List ℤ) (acc : Finset ℕ), acc ⊆ allocatableCPUs →
      ids.foldl (fun alignedCPUs numaNodeID =>
        alignedCPUs ∪ (allocatableCPUs ∩ p.topology.cpusInNUMANodes numaNodeID)) acc ⊆
        allocatableCPUs from this _ ∅ (Finset.empty_subset _)
  intro ids
  induction ids with
  | nil => exact fun _ h => h
  | cons id ids ih => exact fun acc h => ih _ (Finset.union_subset h Finset.inter_subset_left)

theorem takeAligned_subset {p : StaticPolicy} {allocatableCPUs : Finset ℕ} {numCPUs : ℕ}
    {numaAffinity : Option BitMask} {result : Finset ℕ}
    (h : p.takeAligned takeByTopology allocatableCPUs numCPUs numaAffinity = .ok result) :
    result ⊆ allocatableCPUs := by
  unfold takeAligned at h
  split at h
  · cases h
    exact Finset.empty_subset _
  · exact (takeByTopology.take_subset h).trans (alignedCPUs_subset _ _ _)

/-- `allocateCPUs` fails and leaves the state as it is, or finds CPUs among the allocatable and
reusable ones and takes them out of the pool. -/
theorem allocateCPUs_cases (p : StaticPolicy) (s : State) (numCPUs : ℕ)
    (numaAffinity : Option BitMask) (reusableCPUs : Finset ℕ) :
    (∃ err, p.allocateCPUs takeByTopology s numCPUs numaAffinity reusableCPUs = (s, .error err)) ∨
    ∃ result, result ⊆ p.getAllocatableCPUs s ∪ reusableCPUs ∧
      p.allocateCPUs takeByTopology s numCPUs numaAffinity reusableCPUs =
        (s.setDefaultCPUSet (s.defaultCPUSet \ result), .ok result) := by
  unfold allocateCPUs
  dsimp only
  cases haligned : p.takeAligned takeByTopology (p.getAllocatableCPUs s ∪ reusableCPUs) numCPUs
      numaAffinity with
  | error err => exact .inl ⟨err, rfl⟩
  | ok result =>
    dsimp only
    cases hrest : takeByTopology.take p.topology ((p.getAllocatableCPUs s ∪ reusableCPUs) \ result)
        (numCPUs - result.card) with
    | error err => exact .inl ⟨err, rfl⟩
    | ok remainingCPUs =>
      have hremaining := (takeByTopology.take_subset hrest).trans Finset.sdiff_subset
      exact .inr ⟨result ∪ remainingCPUs,
        Finset.union_subset (takeAligned_subset takeByTopology haligned) hremaining, rfl⟩

/-- The four ways `Allocate` ends: nothing to do; the container already has its set, which the
pod's reusable CPUs learn of; the allocation fails, and nothing changes; or the container gets
CPUs from the allocatable and the pod's reusable ones, out of the pool. -/
theorem allocate_cases (p : StaticPolicy) (s : State) (pod : Pod) (container : Container) :
    p.allocate takeByTopology s pod container = (p, s, .ok ()) ∨
    (∃ cset, s.getCPUSet pod.uid container.name = some cset ∧
      p.allocate takeByTopology s pod container = (p.updateCPUsToReuse pod container cset, s, .ok ())) ∨
    (∃ err, p.allocate takeByTopology s pod container = (p, s, .error err)) ∨
    ∃ cset, s.getCPUSet pod.uid container.name = none ∧
      cset ⊆ p.getAllocatableCPUs s ∪ (p.cpusToReuse.lookup pod.uid).getD ∅ ∧
      p.allocate takeByTopology s pod container = (p.updateCPUsToReuse pod container cset,
        (s.setDefaultCPUSet (s.defaultCPUSet \ cset)).setCPUSet pod.uid container.name cset, .ok ()) := by
  unfold allocate
  dsimp only
  split_ifs with hzero
  · exact .inl rfl
  · cases hget : s.getCPUSet pod.uid container.name with
    | some cset => exact .inr (.inl ⟨cset, rfl, rfl⟩)
    | none =>
      obtain ⟨err, herr⟩ | ⟨cset, hsub, hok⟩ := allocateCPUs_cases takeByTopology p s
        (guaranteedCPUs pod container) (p.affinity pod.uid container.name).numaNodeAffinity
        ((p.cpusToReuse.lookup pod.uid).getD ∅)
      · exact .inr (.inr (.inl ⟨err, by simp only [herr]⟩))
      · exact .inr (.inr (.inr ⟨cset, rfl, hsub, by simp only [hok]⟩))

/-- An `Allocate` that fails leaves the policy and the state as they were. -/
theorem allocate_of_error {p p' : StaticPolicy} {s s' : State} {pod : Pod} {container : Container}
    {err : String} (h : p.allocate takeByTopology s pod container = (p', s', .error err)) :
    p' = p ∧ s' = s := by
  rcases allocate_cases takeByTopology p s pod container with
    hok | ⟨_, _, hok⟩ | ⟨_, herr⟩ | ⟨_, _, _, hok⟩
  · simp [hok] at h
  · simp [hok] at h
  · rw [herr] at h
    cases h
    exact ⟨rfl, rfl⟩
  · simp [hok] at h

end Allocate

/-! ## `validateState` -/

theorem mem_assignmentList (s : State) (pod container : String) (cset : Finset ℕ) :
    (pod, container, cset) ∈ assignmentList s.assignments ↔ s.getCPUSet pod container = some cset := by
  simp only [assignmentList, List.mem_flatMap, List.mem_map, State.getCPUSet]
  constructor
  · rintro ⟨⟨pod', containers⟩, hpod, ⟨c, cs⟩, hc, heq⟩
    simp only [Prod.mk.injEq] at heq
    obtain ⟨rfl, rfl, rfl⟩ := heq
    rw [AList.mem_lookup_iff.mpr hpod]
    exact AList.mem_lookup_iff.mpr hc
  · intro h
    obtain ⟨containers, hpod, hc⟩ := Option.bind_eq_some_iff.mp h
    exact ⟨⟨pod, containers⟩, AList.mem_lookup_iff.mp hpod, ⟨container, cset⟩,
      AList.mem_lookup_iff.mp hc, rfl⟩

theorem mem_unionAll (s : Finset ℕ) (s2 : List (Finset ℕ)) (cpu : ℕ) :
    cpu ∈ unionAll s s2 ↔ cpu ∈ s ∨ ∃ t ∈ s2, cpu ∈ t := by
  induction s2 generalizing s with
  | nil => simp [unionAll]
  | cons t s2 ih =>
    simp only [unionAll, List.foldl_cons] at ih ⊢
    rw [ih, Finset.mem_union]
    simp [or_assoc]

/-- The CPUs `validateState` counts: the pool's and those some container holds. -/
theorem mem_totalKnownCPUs (s : State) (cpu : ℕ) :
    cpu ∈ unionAll s.defaultCPUSet ((assignmentList s.assignments).map (·.2.2)) ↔
      cpu ∈ s.defaultCPUSet ∨ ∃ pod, Held s pod cpu := by
  rw [mem_unionAll]
  simp only [List.mem_map]
  constructor
  · rintro (h | ⟨_, ⟨⟨pod, c, cs⟩, hmem, rfl⟩, hcpu⟩)
    · exact .inl h
    · exact .inr ⟨pod, c, cs, (mem_assignmentList s pod c cs).mp hmem, hcpu⟩
  · rintro (h | ⟨pod, c, cs, hget, hcpu⟩)
    · exact .inl h
    · exact .inr ⟨cs, ⟨(pod, c, cs), (mem_assignmentList s pod c cs).mpr hget, rfl⟩, hcpu⟩

/-- `validateState`'s second loop finds no overlap exactly when the pool meets no container's
set. -/
theorem find?_overlap_eq_none_iff (s : State) :
    (assignmentList s.assignments).find? (fun a => s.defaultCPUSet ∩ a.2.2 ≠ ∅) = none ↔
      ∀ pod cpu, Held s pod cpu → cpu ∉ s.defaultCPUSet := by
  rw [List.find?_eq_none]
  constructor
  · rintro h pod cpu ⟨c, cs, hget, hcpu⟩ hdefault
    have hempty := h (pod, c, cs) ((mem_assignmentList s pod c cs).mpr hget)
    simp only [decide_eq_true_eq, not_not] at hempty
    have hboth : cpu ∈ s.defaultCPUSet ∩ cs := Finset.mem_inter.mpr ⟨hdefault, hcpu⟩
    simp [hempty] at hboth
  · rintro h ⟨pod, c, cs⟩ hmem
    simp only [decide_eq_true_eq, not_not, Finset.eq_empty_iff_forall_notMem, Finset.mem_inter]
    intro cpu ⟨hdefault, hcpu⟩
    exact h pod cpu ⟨c, cs, (mem_assignmentList s pod c cs).mp hmem, hcpu⟩ hdefault

/-! ## The invariant -/

/-- Items (i)–(iv) of what the static policy keeps of its state: the pool and the containers'
sets together are the topology's CPUs, the pool meets no container's set, the reserved CPUs stay
in the pool, and no CPU is held by two pods. -/
structure Consistent (p : StaticPolicy) (s : State) : Prop where
  cover : ∀ cpu, cpu ∈ p.topology.cpus ↔ cpu ∈ s.defaultCPUSet ∨ ∃ pod, Held s pod cpu
  default_disjoint : ∀ pod cpu, Held s pod cpu → cpu ∉ s.defaultCPUSet
  reserved_subset : p.reserved ⊆ s.defaultCPUSet
  pods_disjoint : ∀ pod₁ pod₂ cpu, Held s pod₁ cpu → Held s pod₂ cpu → pod₁ = pod₂

theorem Consistent.of_policy {p p' : StaticPolicy} {s : State} (h : Consistent p s)
    (htopology : p'.topology = p.topology) (hreserved : p'.reserved = p.reserved) :
    Consistent p' s := by
  obtain ⟨hcover, hdisjoint, hsubset, hpods⟩ := h
  rw [← htopology] at hcover
  rw [← hreserved] at hsubset
  exact ⟨hcover, hdisjoint, hsubset, hpods⟩

/-- `validateState` accepts a consistent state with some reserved CPU, and leaves it as it is. -/
theorem validateState_of_consistent {p : StaticPolicy} {s : State} (h : Consistent p s)
    (hreserved : p.reserved.Nonempty) : p.validateState s = (s, .ok ()) := by
  have hdefault : s.defaultCPUSet ≠ ∅ :=
    Finset.nonempty_iff_ne_empty.mp (hreserved.mono h.reserved_subset)
  have hres : p.reserved ∩ s.defaultCPUSet = p.reserved := Finset.inter_eq_left.mpr h.reserved_subset
  have hoverlap := (find?_overlap_eq_none_iff s).mpr h.default_disjoint
  have htotal : unionAll s.defaultCPUSet ((assignmentList s.assignments).map (·.2.2)) =
      p.topology.cpus := by
    ext cpu
    rw [mem_totalKnownCPUs, h.cover]
  unfold validateState
  dsimp only
  rw [if_neg hdefault, if_neg (not_not.mpr hres), hoverlap]
  dsimp only
  rw [if_neg (not_not.mpr htotal)]

/-- A state `validateState` accepts is consistent once filled, provided no CPU is held by two pods
and the reserved CPUs are the topology's. -/
theorem consistent_of_validateState {p : StaticPolicy} {s s₀ : State}
    (hvalid : p.validateState s = (s₀, .ok ())) (hcpus : p.reserved ⊆ p.topology.cpus)
    (hpods : ∀ pod₁ pod₂ cpu, Held s pod₁ cpu → Held s pod₂ cpu → pod₁ = pod₂) :
    Consistent p s₀ := by
  unfold validateState at hvalid
  dsimp only at hvalid
  by_cases hempty : s.defaultCPUSet = ∅
  · rw [if_pos hempty] at hvalid
    by_cases hlen : s.assignments.entries.length ≠ 0
    · simp [hlen] at hvalid
    rw [if_neg hlen] at hvalid
    cases hvalid
    have hnone : ∀ pod cpu, ¬ Held s pod cpu := by
      rintro pod cpu ⟨c, cs, hget, -⟩
      have hlookup : s.assignments.lookup pod = none := by
        rw [AList.lookup_eq_none, AList.mem_keys, AList.keys, List.keys,
          List.eq_nil_of_length_eq_zero (not_not.mp hlen)]
        exact List.not_mem_nil
      simp [State.getCPUSet, hlookup] at hget
    exact ⟨by simp [hnone], by simp [hnone], by simpa using hcpus, by simp [hnone]⟩
  · rw [if_neg hempty] at hvalid
    by_cases hres : p.reserved ∩ s.defaultCPUSet ≠ p.reserved
    · simp [hres] at hvalid
    rw [if_neg hres] at hvalid
    split at hvalid
    · cases hvalid
    · rename_i hoverlap
      by_cases htotal : unionAll s.defaultCPUSet ((assignmentList s.assignments).map (·.2.2)) ≠
          p.topology.cpus
      · simp [htotal] at hvalid
      rw [if_neg htotal] at hvalid
      cases hvalid
      refine ⟨fun cpu => ?_, (find?_overlap_eq_none_iff s).mp hoverlap,
        Finset.inter_eq_left.mp (not_not.mp hres), hpods⟩
      rw [← not_not.mp htotal, mem_totalKnownCPUs]

/-- The invariant along a run: a consistent state, some reserved CPU, and reusable CPUs of each
pod that are in the pool or held by the pod itself, and not reserved. -/
structure Inv (p : StaticPolicy) (s : State) : Prop extends Consistent p s where
  reserved_nonempty : p.reserved.Nonempty
  reuse : ∀ pod reusable, p.cpusToReuse.lookup pod = some reusable → ∀ cpu ∈ reusable,
    (cpu ∈ s.defaultCPUSet ∨ Held s pod cpu) ∧ cpu ∉ p.reserved

theorem Inv.reuse_getD {p : StaticPolicy} {s : State} (h : Inv p s) (pod : String) :
    ∀ cpu ∈ (p.cpusToReuse.lookup pod).getD ∅,
      (cpu ∈ s.defaultCPUSet ∨ Held s pod cpu) ∧ cpu ∉ p.reserved := by
  cases hlookup : p.cpusToReuse.lookup pod with
  | none => simp
  | some reusable => exact h.reuse pod reusable hlookup

/-- A container that already has its set: the pod's reusable CPUs learn of it. -/
theorem inv_updateCPUsToReuse_of_getCPUSet {p : StaticPolicy} {s : State} {pod : Pod}
    {container : Container} {cset : Finset ℕ} (h : Inv p s)
    (hget : s.getCPUSet pod.uid container.name = some cset) :
    Inv (p.updateCPUsToReuse pod container cset) s := by
  refine ⟨h.toConsistent.of_policy (by simp) (by simp), by simpa using h.reserved_nonempty, ?_⟩
  intro q reusable hq cpu hcpu
  have hcset : ∀ cpu ∈ cset, (cpu ∈ s.defaultCPUSet ∨ Held s pod.uid cpu) ∧ cpu ∉ p.reserved :=
    fun cpu hc => ⟨.inr ⟨_, _, hget, hc⟩,
      fun hr => h.default_disjoint _ _ ⟨_, _, hget, hc⟩ (h.reserved_subset hr)⟩
  obtain ⟨rfl, hall⟩ := lookup_updateCPUsToReuse_forall (h.reuse_getD pod.uid) hcset hq
  simpa using hall cpu hcpu

/-- A new container gets CPUs from the allocatable ones and the pod's reusable ones. -/
theorem inv_allocate {p : StaticPolicy} {s : State} {pod : Pod} {container : Container}
    {cset : Finset ℕ} (h : Inv p s) (hget : s.getCPUSet pod.uid container.name = none)
    (hsub : cset ⊆ p.getAllocatableCPUs s ∪ (p.cpusToReuse.lookup pod.uid).getD ∅) :
    Inv (p.updateCPUsToReuse pod container cset)
      ((s.setDefaultCPUSet (s.defaultCPUSet \ cset)).setCPUSet pod.uid container.name cset) := by
  set s' := (s.setDefaultCPUSet (s.defaultCPUSet \ cset)).setCPUSet pod.uid container.name cset
  have hcset : ∀ cpu ∈ cset, (cpu ∈ s.defaultCPUSet ∨ Held s pod.uid cpu) ∧ cpu ∉ p.reserved := by
    intro cpu hcpu
    rcases Finset.mem_union.mp (hsub hcpu) with hfree | hreuse
    · obtain ⟨hdefault, hr⟩ := Finset.mem_sdiff.mp hfree
      exact ⟨.inl hdefault, hr⟩
    · exact h.reuse_getD pod.uid cpu hreuse
  have hheld : ∀ q cpu, Held s' q cpu ↔ (q = pod.uid ∧ cpu ∈ cset) ∨ Held s q cpu :=
    held_setCPUSet (by simpa using hget) cset
  have hdefault : s'.defaultCPUSet = s.defaultCPUSet \ cset := by simp [s']
  have hown : ∀ q cpu, cpu ∈ cset → Held s q cpu → q = pod.uid := by
    intro q cpu hc hq
    rcases (hcset cpu hc).1 with hd | hp
    · exact absurd hd (h.default_disjoint q cpu hq)
    · exact h.pods_disjoint q pod.uid cpu hq hp
  refine ⟨⟨?cover, ?disjoint, ?reserved, ?pods⟩, by simpa using h.reserved_nonempty, ?reuse⟩
  case cover =>
    intro cpu
    rw [updateCPUsToReuse_topology, h.cover, hdefault, Finset.mem_sdiff]
    simp only [hheld]
    constructor
    · rintro (hd | ⟨q, hq⟩)
      · by_cases hc : cpu ∈ cset
        · exact .inr ⟨pod.uid, .inl ⟨rfl, hc⟩⟩
        · exact .inl ⟨hd, hc⟩
      · exact .inr ⟨q, .inr hq⟩
    · rintro (⟨hd, -⟩ | ⟨q, ⟨-, hc⟩ | hq⟩)
      · exact .inl hd
      · rcases (hcset cpu hc).1 with hd | hp
        · exact .inl hd
        · exact .inr ⟨_, hp⟩
      · exact .inr ⟨q, hq⟩
  case disjoint =>
    intro q cpu hq
    rw [hdefault, Finset.mem_sdiff, not_and_not_right]
    rcases (hheld q cpu).mp hq with ⟨-, hc⟩ | hq
    · exact fun _ => hc
    · exact fun hd => absurd hd (h.default_disjoint q cpu hq)
  case reserved =>
    intro r hr
    rw [updateCPUsToReuse_reserved] at hr
    rw [hdefault, Finset.mem_sdiff]
    exact ⟨h.reserved_subset hr, fun hc => (hcset r hc).2 hr⟩
  case pods =>
    intro q₁ q₂ cpu h₁ h₂
    rcases (hheld q₁ cpu).mp h₁ with ⟨rfl, hc₁⟩ | h₁ <;>
      rcases (hheld q₂ cpu).mp h₂ with ⟨rfl, hc₂⟩ | h₂
    · rfl
    · exact (hown q₂ cpu hc₁ h₂).symm
    · exact hown q₁ cpu hc₂ h₁
    · exact h.pods_disjoint q₁ q₂ cpu h₁ h₂
  case reuse =>
    intro q reusable hq cpu hcpu
    have hlift : ∀ cpu, (cpu ∈ s.defaultCPUSet ∨ Held s pod.uid cpu) ∧ cpu ∉ p.reserved →
        (cpu ∈ s'.defaultCPUSet ∨ Held s' pod.uid cpu) ∧ cpu ∉ p.reserved := by
      rintro cpu ⟨hd | hp, hr⟩
      · by_cases hc : cpu ∈ cset
        · exact ⟨.inr ((hheld _ _).mpr (.inl ⟨rfl, hc⟩)), hr⟩
        · exact ⟨.inl (by rw [hdefault]; exact Finset.mem_sdiff.mpr ⟨hd, hc⟩), hr⟩
      · exact ⟨.inr ((hheld _ _).mpr (.inr hp)), hr⟩
    obtain ⟨rfl, hall⟩ := lookup_updateCPUsToReuse_forall
      (fun cpu hc => hlift cpu (h.reuse_getD pod.uid cpu hc))
      (fun cpu hc => hlift cpu (hcset cpu hc)) hq
    simpa using hall cpu hcpu

/-- Removing a whole pod gives all its CPUs back to the pool. -/
theorem inv_removePod {p : StaticPolicy} {s : State} (h : Inv p s) (podUID : String) :
    Inv p (removePod s podUID) := by
  refine ⟨⟨?cover, ?disjoint, ?reserved, ?pods⟩, h.reserved_nonempty, ?reuse⟩
  case cover =>
    intro cpu
    rw [h.cover, mem_removePod_defaultCPUSet]
    simp only [held_removePod]
    constructor
    · rintro (hd | ⟨q, hq⟩)
      · exact .inl (.inl hd)
      · by_cases hqp : q = podUID
        · subst hqp
          exact .inl (.inr hq)
        · exact .inr ⟨q, hqp, hq⟩
    · rintro ((hd | hp) | ⟨q, -, hq⟩)
      · exact .inl hd
      · exact .inr ⟨podUID, hp⟩
      · exact .inr ⟨q, hq⟩
  case disjoint =>
    intro q cpu hq
    rw [held_removePod] at hq
    rw [mem_removePod_defaultCPUSet]
    rintro (hd | hp)
    · exact h.default_disjoint q cpu hq.2 hd
    · exact hq.1 (h.pods_disjoint q podUID cpu hq.2 hp)
  case reserved =>
    intro r hr
    exact (mem_removePod_defaultCPUSet s podUID r).mpr (.inl (h.reserved_subset hr))
  case pods =>
    intro q₁ q₂ cpu h₁ h₂
    rw [held_removePod] at h₁ h₂
    exact h.pods_disjoint q₁ q₂ cpu h₁.2 h₂.2
  case reuse =>
    intro q reusable hq cpu hcpu
    obtain ⟨hheld, hr⟩ := h.reuse q reusable hq cpu hcpu
    refine ⟨?_, hr⟩
    rw [mem_removePod_defaultCPUSet, held_removePod]
    rcases hheld with hd | hq'
    · exact .inl (.inl hd)
    · by_cases hqp : q = podUID
      · subst hqp
        exact .inl (.inr hq')
      · exact .inr ⟨hqp, hq'⟩

/-! ## Runs -/

section Run

variable (takeByTopology : TakeByTopology)

/-- No event changes the topology or the reserved CPUs. -/
theorem step_policy (ps : StaticPolicy × State) (e : Event) :
    (step takeByTopology ps e).1.topology = ps.1.topology ∧
      (step takeByTopology ps e).1.reserved = ps.1.reserved := by
  cases e with
  | allocate pod container =>
    simp only [step]
    rcases allocate_cases takeByTopology ps.1 ps.2 pod container with
      hok | ⟨_, _, hok⟩ | ⟨_, hok⟩ | ⟨_, _, _, hok⟩ <;> simp [hok]
  | removePod podUID => exact ⟨rfl, rfl⟩

theorem run_policy (ps : StaticPolicy × State) (events : List Event) :
    (run takeByTopology ps events).1.topology = ps.1.topology ∧
      (run takeByTopology ps events).1.reserved = ps.1.reserved := by
  induction events generalizing ps with
  | nil => exact ⟨rfl, rfl⟩
  | cons e events ih =>
    obtain ⟨htopology, hreserved⟩ := step_policy takeByTopology ps e
    obtain ⟨htopology', hreserved'⟩ := ih (step takeByTopology ps e)
    exact ⟨htopology'.trans htopology, hreserved'.trans hreserved⟩

theorem inv_step {ps : StaticPolicy × State} (h : Inv ps.1 ps.2) (e : Event) :
    Inv (step takeByTopology ps e).1 (step takeByTopology ps e).2 := by
  cases e with
  | allocate pod container =>
    simp only [step]
    rcases allocate_cases takeByTopology ps.1 ps.2 pod container with
      hok | ⟨cset, hget, hok⟩ | ⟨err, hok⟩ | ⟨cset, hget, hsub, hok⟩ <;> rw [hok]
    · exact h
    · exact inv_updateCPUsToReuse_of_getCPUSet h hget
    · exact h
    · exact inv_allocate h hget hsub
  | removePod podUID => exact inv_removePod h podUID

theorem inv_run {ps : StaticPolicy × State} (h : Inv ps.1 ps.2) (events : List Event) :
    Inv (run takeByTopology ps events).1 (run takeByTopology ps events).2 := by
  induction events generalizing ps with
  | nil => exact h
  | cons e events ih => exact ih (inv_step takeByTopology h e)

/-- The reserved CPUs are the topology's when those given are. -/
theorem reservedOf_subset {topology : CPUTopology} {numReservedCPUs : ℕ}
    {reservedCPUs : Finset ℕ} (hcpus : reservedCPUs ⊆ topology.cpus) :
    reservedOf takeByTopology topology numReservedCPUs reservedCPUs ⊆ topology.cpus := by
  unfold reservedOf
  dsimp only
  split
  · exact hcpus
  · split
    · exact takeByTopology.take_subset ‹_›
    · exact Finset.empty_subset _

/-- What `NewStaticPolicy` builds: no reusable CPUs yet, and as many reserved CPUs as asked,
taken from the topology unless given. -/
theorem newStaticPolicy_spec {topology : CPUTopology} {numReservedCPUs : ℕ}
    {reservedCPUs : Finset ℕ} {affinity : String → String → TopologyHint} {p : StaticPolicy}
    (hp : newStaticPolicy takeByTopology topology numReservedCPUs reservedCPUs affinity = .ok p) :
    p.topology = topology ∧ p.cpusToReuse = ∅ ∧ p.reserved.card = numReservedCPUs ∧
      (reservedCPUs ⊆ topology.cpus → p.reserved ⊆ topology.cpus) := by
  unfold newStaticPolicy at hp
  dsimp only at hp
  split at hp
  · cases hp
  · rename_i hcard
    cases hp
    exact ⟨rfl, rfl, not_not.mp hcard, reservedOf_subset takeByTopology⟩

theorem inv_of_validateState {topology : CPUTopology} {numReservedCPUs : ℕ}
    {reservedCPUs : Finset ℕ} {affinity : String → String → TopologyHint} {p : StaticPolicy}
    (hp : newStaticPolicy takeByTopology topology numReservedCPUs reservedCPUs affinity = .ok p)
    (hnum : 0 < numReservedCPUs) (hcpus : reservedCPUs ⊆ topology.cpus) {s s₀ : State}
    (hvalid : p.validateState s = (s₀, .ok ()))
    (hpods : ∀ pod₁ pod₂ cpu, Held s pod₁ cpu → Held s pod₂ cpu → pod₁ = pod₂) : Inv p s₀ := by
  obtain ⟨htopology, hreuse, hcard, hsubset⟩ := newStaticPolicy_spec takeByTopology hp
  have hreserved : p.reserved ⊆ p.topology.cpus := htopology ▸ hsubset hcpus
  refine ⟨consistent_of_validateState hvalid hreserved hpods,
    Finset.card_pos.mp (hcard ▸ hnum), ?_⟩
  intro pod reusable hlookup
  simp [hreuse] at hlookup

/-- The static policy as the CPU manager builds it (some CPUs reserved, those given being the
topology's), started on a state `validateState` accepts in which no CPU is held by two pods: after
any events its state is consistent and accepted again, and an `Allocate` that fails changes
nothing. -/
theorem run_consistent {topology : CPUTopology} {numReservedCPUs : ℕ}
    {reservedCPUs : Finset ℕ} {affinity : String → String → TopologyHint} {p : StaticPolicy}
    (hp : newStaticPolicy takeByTopology topology numReservedCPUs reservedCPUs affinity = .ok p)
    (hnum : 0 < numReservedCPUs) (hcpus : reservedCPUs ⊆ topology.cpus) {s s₀ : State}
    (hvalid : p.validateState s = (s₀, .ok ()))
    (hpods : ∀ pod₁ pod₂ cpu, Held s pod₁ cpu → Held s pod₂ cpu → pod₁ = pod₂)
    (events : List Event) :
    Consistent p (run takeByTopology (p, s₀) events).2 ∧
      (run takeByTopology (p, s₀) events).1.validateState (run takeByTopology (p, s₀) events).2 =
        ((run takeByTopology (p, s₀) events).2, .ok ()) ∧
      ∀ (p' : StaticPolicy) s' pod container p'' s'' err,
        p'.allocate takeByTopology s' pod container = (p'', s'', .error err) → p'' = p' ∧ s'' = s' := by
  have hinv : Inv (run takeByTopology (p, s₀) events).1 (run takeByTopology (p, s₀) events).2 :=
    inv_run takeByTopology (inv_of_validateState takeByTopology hp hnum hcpus hvalid hpods) events
  obtain ⟨htopology, hreserved⟩ := run_policy takeByTopology (p, s₀) events
  exact ⟨hinv.toConsistent.of_policy htopology.symm hreserved.symm,
    validateState_of_consistent hinv.toConsistent hinv.reserved_nonempty,
    fun _ _ _ _ _ _ _ h => allocate_of_error takeByTopology h⟩

end Run

/-- Four CPUs on one NUMA node. -/
def fourCPUs : CPUTopology := ⟨{0, 1, 2, 3}, fun _ => 0⟩

/-- The policy on `fourCPUs` with CPU 0 reserved and no topology hints. -/
def fourCPUPolicy : StaticPolicy := ⟨fourCPUs, {0}, fun _ _ => ⟨none, true⟩, ∅⟩

/-- Two pods whose app containers both hold CPU 1. -/
def sharedCPUState : State where
  assignments := (AList.singleton "pod-a" (AList.singleton "app" {1})).insert "pod-b"
    (AList.singleton "app" {1})
  defaultCPUSet := {0, 2, 3}

theorem validateState_accepts_shared_cpu :
    (fourCPUPolicy.validateState sharedCPUState).2 = .ok () ∧
      Held sharedCPUState "pod-a" 1 ∧ Held sharedCPUState "pod-b" 1 ∧
      1 ∈ (removePod sharedCPUState "pod-a").defaultCPUSet ∧
      Held (removePod sharedCPUState "pod-a") "pod-b" 1 ∧
      (fourCPUPolicy.validateState (removePod sharedCPUState "pod-a")).2 ≠ .ok () := by
  refine ⟨by decide, ⟨"app", {1}, rfl, by decide⟩, ⟨"app", {1}, rfl, by decide⟩, by decide,
    ⟨"app", {1}, rfl, by decide⟩, by decide⟩

end Kubernetes.CPUManager
