import Mathlib
import Kubernetes.CPUManager.Assignment

/-!
# Whole cores and whole sockets

On a topology whose sockets have `CPUsPerSocket` CPUs each and whose cores have `CPUsPerCore`
(`Uniform`), `takeByTopology` keeps its promise to prefer whole sockets and cores:

* a request of at least a socket's worth, with a whole socket available, gets a whole socket
  (`takeByTopology_wholeSocket`);
* a request of whole cores, with that many whole cores available, gets whole cores only
  (`takeByTopology_wholeCores`), provided each core lies on one socket, as in the topologies
  `Discover` builds, where a core is numbered by its lowest CPU (`CoresOnOneSocket`). A socket
  that shares a core with another is taken whole in the first phase and splits the core.

The first two phases keep `Whole`: what was taken is whole cores, what is still needed is a
multiple of `CPUsPerCore`, and there are enough CPUs in whole available cores to cover it. Each
socket or core a phase visits is either still whole or already taken (`Atomic`), and in the
second phase every whole available core is still to be visited; so the second phase meets the
request before it runs out of cores.
-/

namespace Kubernetes.CPUManager

open Kubernetes.CPUManager.Topology

namespace Topology.CPUTopology

variable (topo : CPUTopology)

/-- Every socket has `CPUsPerSocket` CPUs and every core `CPUsPerCore`. -/
structure Uniform : Prop where
  socket_card : ∀ s ∈ topo.cpuDetails.sockets,
    (topo.cpuDetails.cpusInSockets s).card = topo.cpusPerSocket
  core_card : ∀ c ∈ topo.cpuDetails.cores, (topo.cpuDetails.cpusInCores c).card = topo.cpusPerCore

/-- Every core lies on one socket. -/
def CoresOnOneSocket : Prop :=
  ∀ cpu ∈ topo.cpuDetails.cpus, ∀ cpu' ∈ topo.cpuDetails.cpus,
    (topo.cpuDetails.info cpu).coreID = (topo.cpuDetails.info cpu').coreID →
      (topo.cpuDetails.info cpu).socketID = (topo.cpuDetails.info cpu').socketID

/-- The core of each CPU of `cpus` is all in `cpus`. -/
def WholeCores (cpus : Finset ℕ) : Prop :=
  ∀ cpu ∈ cpus, topo.cpuDetails.cpusInCores (topo.cpuDetails.info cpu).coreID ⊆ cpus

instance (cpus : Finset ℕ) : Decidable (topo.WholeCores cpus) :=
  inferInstanceAs (Decidable (∀ cpu ∈ cpus, _ ⊆ cpus))

/-- The CPUs of `cpus` whose whole core is in `cpus`. -/
def wholeCoreCPUs (cpus : Finset ℕ) : Finset ℕ :=
  cpus.filter fun cpu => topo.cpuDetails.cpusInCores (topo.cpuDetails.info cpu).coreID ⊆ cpus

/-- The cores all of whose CPUs are in `cpus`. -/
def freeCoresIn (cpus : Finset ℕ) : Finset ℤ :=
  topo.cpuDetails.cores.filter fun c => topo.cpuDetails.cpusInCores c ⊆ cpus

variable {topo}

theorem mem_cpusInCores_self {cpu : ℕ} (h : cpu ∈ topo.cpuDetails.cpus) :
    cpu ∈ topo.cpuDetails.cpusInCores (topo.cpuDetails.info cpu).coreID := by
  simp [CPUDetails.cpusInCores, h]

theorem wholeCores_union {s t : Finset ℕ} (hs : topo.WholeCores s) (ht : topo.WholeCores t) :
    topo.WholeCores (s ∪ t) := by
  intro cpu hcpu
  rcases Finset.mem_union.mp hcpu with h | h
  · exact (hs cpu h).trans Finset.subset_union_left
  · exact (ht cpu h).trans Finset.subset_union_right

theorem wholeCores_empty : topo.WholeCores ∅ := by
  simp [WholeCores]

theorem wholeCores_cpusInCores (c : ℤ) : topo.WholeCores (topo.cpuDetails.cpusInCores c) := by
  intro cpu hcpu
  rw [(CPUDetails.mem_cpusWith.mp hcpu).2]

theorem wholeCores_cpusInSockets (h : topo.CoresOnOneSocket) (s : ℤ) :
    topo.WholeCores (topo.cpuDetails.cpusInSockets s) := by
  intro cpu hcpu cpu' hcpu'
  simp only [CPUDetails.cpusInSockets, CPUDetails.cpusInCores, CPUDetails.mem_cpusWith] at hcpu hcpu' ⊢
  exact ⟨hcpu'.1, (h cpu' hcpu'.1 cpu hcpu.1 hcpu'.2).trans hcpu.2⟩

theorem wholeCoreCPUs_subset (cpus : Finset ℕ) : topo.wholeCoreCPUs cpus ⊆ cpus :=
  Finset.filter_subset _ _

theorem wholeCores_wholeCoreCPUs (cpus : Finset ℕ) : topo.WholeCores (topo.wholeCoreCPUs cpus) := by
  intro cpu hcpu cpu' hcpu'
  have hcore := (Finset.mem_filter.mp hcpu).2
  have hsame := (CPUDetails.mem_cpusWith.mp hcpu').2
  refine Finset.mem_filter.mpr ⟨hcore hcpu', ?_⟩
  rw [hsame]
  exact hcore

/-- **A set of whole cores has `CPUsPerCore` CPUs for each of its cores.** -/
theorem card_of_wholeCores (hu : topo.Uniform) {cpus : Finset ℕ} (hw : topo.WholeCores cpus)
    (hsub : cpus ⊆ topo.cpuDetails.cpus) :
    cpus.card = topo.cpusPerCore * (cpus.image fun cpu => (topo.cpuDetails.info cpu).coreID).card := by
  have hcover : cpus = (cpus.image fun cpu => (topo.cpuDetails.info cpu).coreID).biUnion
      topo.cpuDetails.cpusInCores := by
    ext cpu
    simp only [Finset.mem_biUnion, Finset.mem_image]
    constructor
    · intro h
      exact ⟨_, ⟨cpu, h, rfl⟩, mem_cpusInCores_self (hsub h)⟩
    · rintro ⟨_, ⟨cpu', h', rfl⟩, hcpu⟩
      exact hw cpu' h' hcpu
  rw [hcover, Finset.card_biUnion, ← hcover]
  · rw [Finset.sum_congr rfl fun c hc => hu.core_card c ?_, Finset.sum_const, smul_eq_mul,
      mul_comm]
    obtain ⟨cpu, h, rfl⟩ := Finset.mem_image.mp hc
    exact Finset.mem_image_of_mem _ (hsub h)
  · intro c _ c' _ hne
    refine Finset.disjoint_left.mpr fun cpu hc hc' => hne ?_
    rw [← (CPUDetails.mem_cpusWith.mp hc).2, (CPUDetails.mem_cpusWith.mp hc').2]

theorem dvd_card_of_wholeCores (hu : topo.Uniform) {cpus : Finset ℕ} (hw : topo.WholeCores cpus)
    (hsub : cpus ⊆ topo.cpuDetails.cpus) : (topo.cpusPerCore : ℤ) ∣ cpus.card := by
  rw [card_of_wholeCores hu hw hsub, Nat.cast_mul]
  exact dvd_mul_right _ _

/-- Taking whole cores out of `cpus` takes their CPUs out of the whole cores left. -/
theorem wholeCoreCPUs_sdiff {cpus t : Finset ℕ} (hcpus : cpus ⊆ topo.cpuDetails.cpus)
    (ht : topo.WholeCores t) :
    topo.wholeCoreCPUs (cpus \ t) = topo.wholeCoreCPUs cpus \ t := by
  ext cpu
  simp only [wholeCoreCPUs, Finset.mem_filter, Finset.mem_sdiff]
  constructor
  · rintro ⟨⟨hcpu, hnot⟩, hcore⟩
    exact ⟨⟨hcpu, hcore.trans Finset.sdiff_subset⟩, hnot⟩
  · rintro ⟨⟨hcpu, hcore⟩, hnot⟩
    refine ⟨⟨hcpu, hnot⟩, fun cpu' hcpu' => Finset.mem_sdiff.mpr ⟨hcore hcpu', fun ht' => hnot ?_⟩⟩
    have hsame := (CPUDetails.mem_cpusWith.mp hcpu').2
    exact ht cpu' ht' (hsame ▸ mem_cpusInCores_self (hcpus hcpu))

theorem subset_wholeCoreCPUs {cpus t : Finset ℕ} (ht : topo.WholeCores t) (htc : t ⊆ cpus) :
    t ⊆ topo.wholeCoreCPUs cpus :=
  fun cpu hcpu => Finset.mem_filter.mpr ⟨htc hcpu, (ht cpu hcpu).trans htc⟩

/-- The available CPUs in whole cores are `CPUsPerCore` for each whole available core. -/
theorem card_wholeCoreCPUs (hu : topo.Uniform) (availableCPUs : Finset ℕ) :
    (topo.wholeCoreCPUs (topo.cpuDetails.cpus ∩ availableCPUs)).card =
      topo.cpusPerCore * (topo.freeCoresIn availableCPUs).card := by
  have hsub : topo.wholeCoreCPUs (topo.cpuDetails.cpus ∩ availableCPUs) ⊆ topo.cpuDetails.cpus :=
    (topo.wholeCoreCPUs_subset _).trans Finset.inter_subset_left
  rw [card_of_wholeCores hu (topo.wholeCores_wholeCoreCPUs _) hsub]
  congr 2
  ext c
  simp only [Finset.mem_image, wholeCoreCPUs, freeCoresIn, Finset.mem_filter,
    Finset.subset_inter_iff, CPUDetails.cores]
  constructor
  · rintro ⟨cpu, ⟨hcpu, -, hcore⟩, rfl⟩
    exact ⟨⟨cpu, (Finset.mem_inter.mp hcpu).1, rfl⟩, hcore⟩
  · rintro ⟨⟨cpu, hcpu, rfl⟩, hcore⟩
    refine ⟨cpu, ⟨?_, CPUDetails.cpusWith_subset _ _ _, hcore⟩, rfl⟩
    exact Finset.mem_inter.mpr ⟨hcpu, hcore (mem_cpusInCores_self hcpu)⟩

/-- Each socket or core (`key`) of `ids` is all in `cpus`, or none of it. -/
def Atomic (key : CPUInfo → ℤ) (ids : List ℤ) (cpus : Finset ℕ) : Prop :=
  ∀ id ∈ ids, topo.cpuDetails.cpusWith key id ⊆ cpus ∨
    Disjoint (topo.cpuDetails.cpusWith key id) cpus

/-- Every CPU of `cpus` in a whole core has its core in `ids`. -/
def Covered (ids : List ℤ) (cpus : Finset ℕ) : Prop :=
  ∀ cpu ∈ topo.wholeCoreCPUs cpus, (topo.cpuDetails.info cpu).coreID ∈ ids

/-- Taking the first socket or core of an atomic list takes all of it or nothing, and leaves the
rest atomic. -/
theorem Atomic.cons {key : CPUInfo → ℤ} {id : ℤ} {rest : List ℤ} {cpus : Finset ℕ}
    (h : topo.Atomic key (id :: rest) cpus) :
    (cpus ∩ topo.cpuDetails.cpusWith key id = topo.cpuDetails.cpusWith key id ∨
      cpus ∩ topo.cpuDetails.cpusWith key id = ∅) ∧
    topo.Atomic key rest (cpus \ topo.cpuDetails.cpusWith key id) := by
  refine ⟨?_, fun id' hid' => ?_⟩
  · rcases h id List.mem_cons_self with hsub | hdisj
    · exact .inl (Finset.inter_eq_right.mpr hsub)
    · exact .inr (Finset.disjoint_iff_inter_eq_empty.mp hdisj.symm)
  by_cases hsame : id' = id
  · subst hsame
    exact .inr Finset.disjoint_sdiff
  have hother : Disjoint (topo.cpuDetails.cpusWith key id') (topo.cpuDetails.cpusWith key id) :=
    Finset.disjoint_left.mpr fun cpu h₁ h₂ =>
      hsame ((CPUDetails.mem_cpusWith.mp h₁).2.symm.trans (CPUDetails.mem_cpusWith.mp h₂).2)
  rcases h id' (List.mem_cons_of_mem _ hid') with hsub | hdisj
  · exact .inl (Finset.subset_sdiff.mpr ⟨hsub, hother⟩)
  · exact .inr (Finset.disjoint_of_subset_right Finset.sdiff_subset hdisj)

/-- Taking the first core of a covering list leaves the rest covering. -/
theorem Covered.cons {id : ℤ} {rest : List ℤ} {cpus : Finset ℕ} (hcpus : cpus ⊆ topo.cpuDetails.cpus)
    (h : topo.Covered (id :: rest) cpus) :
    topo.Covered rest (cpus \ topo.cpuDetails.cpusInCores id) := by
  intro cpu hcpu
  rw [wholeCoreCPUs_sdiff hcpus (wholeCores_cpusInCores id), Finset.mem_sdiff] at hcpu
  rcases List.mem_cons.mp (h cpu hcpu.1) with hid | hrest
  · exact absurd (hid ▸ mem_cpusInCores_self (hcpus (wholeCoreCPUs_subset _ hcpu.1))) hcpu.2
  · exact hrest

end Topology.CPUTopology

open Topology.CPUTopology

section Accounts

variable {topo : Topology.CPUTopology} {availableCPUs : Finset ℕ} {numCPUs : ℤ}
  {a : CPUAccumulator}
theorem Accounts.details_subset (h : Accounts topo availableCPUs numCPUs a) :
    a.details.cpus ⊆ topo.cpuDetails.cpus := by
  rw [h.details_cpus]
  exact Finset.sdiff_subset.trans Finset.inter_subset_left

/-- A take takes its CPUs out of `details`. -/
theorem Accounts.take_cpus_eq (h : Accounts topo availableCPUs numCPUs a) (cpus : Finset ℕ) :
    (a.take cpus).details.cpus = a.details.cpus \ cpus := by
  have hres : Disjoint a.details.cpus a.result := by
    rw [h.details_cpus]
    exact Finset.sdiff_disjoint
  rw [CPUAccumulator.take_cpus, Finset.sdiff_union_distrib, Finset.sdiff_eq_self_of_disjoint hres,
    Finset.inter_eq_right.mpr Finset.sdiff_subset]

/-- A free socket or core (`key`) of the accumulator, of `n` CPUs like every socket or core of
a uniform topology, is whole in `details`. -/
theorem Accounts.subset_of_card (h : Accounts topo availableCPUs numCPUs a)
    {key : CPUInfo → ℤ} {id : ℤ} {n : ℕ} (hfree : ((a.details.cpusWith key id).card : ℤ) = n)
    (hcard : (topo.cpuDetails.cpusWith key id).card = n) :
    topo.cpuDetails.cpusWith key id ⊆ a.details.cpus := by
  rw [h.cpusWith] at hfree
  have hinter : a.details.cpus ∩ topo.cpuDetails.cpusWith key id ⊆ topo.cpuDetails.cpusWith key id :=
    Finset.inter_subset_right
  have heq := Finset.eq_of_subset_of_card_le hinter (by rw [hcard]; exact_mod_cast hfree.ge)
  rw [← heq]
  exact Finset.inter_subset_left

theorem Accounts.mem_sockets (h : Accounts topo availableCPUs numCPUs a) {s : ℤ}
    (hs : s ∈ a.details.sockets) : s ∈ topo.cpuDetails.sockets := by
  simp only [CPUDetails.sockets, Finset.mem_image, h.info_eq] at hs ⊢
  obtain ⟨cpu, hcpu, rfl⟩ := hs
  exact ⟨cpu, h.details_subset hcpu, rfl⟩

theorem Accounts.mem_cores (h : Accounts topo availableCPUs numCPUs a) {c : ℤ}
    (hc : c ∈ a.details.cores) : c ∈ topo.cpuDetails.cores := by
  simp only [CPUDetails.cores, Finset.mem_image, h.info_eq] at hc ⊢
  obtain ⟨cpu, hcpu, rfl⟩ := hc
  exact ⟨cpu, h.details_subset hcpu, rfl⟩

end Accounts

namespace CPUAccumulator

section Whole

variable {topo : Topology.CPUTopology} {availableCPUs : Finset ℕ} {numCPUs : ℤ}
  {a : CPUAccumulator}

variable (topo) in
/-- What the first two phases keep on a uniform topology: what was taken is whole cores, what is
still needed a multiple of `CPUsPerCore`, and no more than the CPUs left in whole cores. -/
structure Whole (a : CPUAccumulator) : Prop where
  result : topo.WholeCores a.result
  dvd : (topo.cpusPerCore : ℤ) ∣ a.numCPUsNeeded
  le : a.numCPUsNeeded ≤ (topo.wholeCoreCPUs a.details.cpus).card

/-- Taking whole cores keeps `Whole`. -/
theorem Whole.take (hu : topo.Uniform) (hw : Whole topo a)
    (ha : Accounts topo availableCPUs numCPUs a) {cpus : Finset ℕ}
    (hcpus : cpus ⊆ a.details.cpus) (hwhole : topo.WholeCores cpus) :
    Whole topo (a.take cpus) := by
  have hsub := ha.details_subset
  have hwc := subset_wholeCoreCPUs hwhole hcpus
  have hcard := Finset.card_sdiff_add_card_eq_card hwc
  refine ⟨wholeCores_union hw.result hwhole, ?_, ?_⟩
  · rw [take_numCPUsNeeded]
    exact dvd_sub hw.dvd (dvd_card_of_wholeCores hu hwhole (hcpus.trans hsub))
  · rw [take_numCPUsNeeded, ha.take_cpus_eq cpus, wholeCoreCPUs_sdiff hsub hwhole]
    have := hw.le
    push_cast [← hcard] at this ⊢
    linarith

/-- One pass of either of the first two phases over an atomic list keeps `Whole` and leaves the
rest atomic, when each socket or core (`key`) is whole cores. -/
theorem Whole.take_atomic (hu : topo.Uniform) {key : CPUInfo → ℤ}
    (hkey : ∀ id, topo.WholeCores (topo.cpuDetails.cpusWith key id)) (hw : Whole topo a)
    (ha : Accounts topo availableCPUs numCPUs a) {id : ℤ} {rest : List ℤ}
    (hat : topo.Atomic key (id :: rest) a.details.cpus) :
    Whole topo (a.take (a.details.cpusWith key id)) ∧
      topo.Atomic key rest (a.take (a.details.cpusWith key id)).details.cpus ∧
      (a.take (a.details.cpusWith key id)).details.cpus =
        a.details.cpus \ topo.cpuDetails.cpusWith key id := by
  obtain ⟨hall, hrest⟩ := hat.cons
  have htake := ha.take_cpus_eq (a.details.cpusWith key id)
  rw [ha.cpusWith] at htake ⊢
  rw [Finset.sdiff_inter_self_left] at htake
  refine ⟨hw.take hu ha Finset.inter_subset_left ?_, htake ▸ hrest, htake⟩
  rcases hall with h | h <;> rw [h]
  · exact hkey id
  · exact wholeCores_empty

/-- On a uniform topology, the second phase never ends without meeting the request: with every
whole available core still to visit, running out of cores would leave no CPUs in whole cores,
and what is needed is a multiple of a core's worth. -/
theorem Whole.not_done (hw : Whole topo a) (hneed : 1 ≤ a.numCPUsNeeded) {rest : List ℤ}
    (hcov : topo.Covered rest a.details.cpus)
    (hend : rest = [] ∨ a.numCPUsNeeded < topo.cpusPerCore) : False := by
  rcases hend with rfl | hlt
  · have hempty : topo.wholeCoreCPUs a.details.cpus = ∅ :=
      Finset.eq_empty_of_forall_notMem fun cpu hcpu => List.not_mem_nil (hcov cpu hcpu)
    have := hw.le
    rw [hempty, Finset.card_empty, Nat.cast_zero] at this
    omega
  · have := Int.le_of_dvd (by omega) hw.dvd
    omega

/-! ### The lists of the first two phases -/

/-- On a uniform topology every free socket is whole in `details`. -/
theorem atomic_freeSockets (hu : topo.Uniform) (ha : Accounts topo availableCPUs numCPUs a) :
    topo.Atomic CPUInfo.socketID a.freeSockets a.details.cpus := by
  intro s hs
  refine .inl (ha.subset_of_card (a.card_cpusWith_of_mem_freeSockets hs) ?_)
  rw [ha.topo_eq]
  exact hu.socket_card s (ha.mem_sockets (a.mem_freeSockets.mp hs).1)

/-- On a uniform topology every free core is whole in `details`. -/
theorem atomic_freeCores (hu : topo.Uniform) (ha : Accounts topo availableCPUs numCPUs a)
    (rt : GoRuntime) : topo.Atomic CPUInfo.coreID (a.freeCores rt) a.details.cpus := by
  intro c hc
  refine .inl (ha.subset_of_card (a.card_cpusWith_of_mem_freeCores rt hc) ?_)
  rw [ha.topo_eq]
  exact hu.core_card c (ha.mem_cores ((a.mem_freeCores rt).mp hc).1)

/-- On a uniform topology `freeCores` lists every core whole in `details`. -/
theorem covered_freeCores (hu : topo.Uniform) (ha : Accounts topo availableCPUs numCPUs a)
    (rt : GoRuntime) : topo.Covered (a.freeCores rt) a.details.cpus := by
  intro cpu hcpu
  obtain ⟨hcpu, hcore⟩ := Finset.mem_filter.mp hcpu
  have hmem : (topo.cpuDetails.info cpu).coreID ∈ a.details.cores := by
    simp only [CPUDetails.cores, Finset.mem_image, ha.info_eq]
    exact ⟨cpu, hcpu, rfl⟩
  refine (a.mem_freeCores rt).mpr ⟨hmem, decide_eq_true ?_⟩
  rw [CPUDetails.cpusInCores] at hcore ⊢
  rw [ha.cpusWith, Finset.inter_eq_right.mpr hcore, ha.topo_eq]
  exact hu.core_card _ (ha.mem_cores hmem)

/-! ### The first two phases on a uniform topology -/

/-- **The second phase, started with `Whole`, meets the request with whole cores.** -/
theorem takeCores_wholeCores (hu : topo.Uniform) (rt : GoRuntime)
    (ha : Accounts topo availableCPUs numCPUs a) (hw : Whole topo a)
    (hneed : 1 ≤ a.numCPUsNeeded) : ∃ r, topo.WholeCores r ∧ a.takeCores rt = .ok r := by
  have hspec := takeWhole_spec (P := fun rest a => Whole topo a ∧
      topo.Atomic CPUInfo.coreID rest a.details.cpus ∧ topo.Covered rest a.details.cpus)
    (fun id rest a ⟨hw, hat, hcov⟩ ha _ => by
      obtain ⟨hw', hat', hcpus⟩ := hw.take_atomic hu wholeCores_cpusInCores ha hat
      refine ⟨hw', hat', ?_⟩
      rw [hcpus]
      exact hcov.cons ha.details_subset)
    ha hneed (fun _ hid => (a.card_cpusWith_of_mem_freeCores rt hid).le)
    ⟨hw, atomic_freeCores hu ha rt, covered_freeCores hu ha rt⟩
  unfold takeCores
  cases hwhole : a.takeWhole CPUInfo.coreID a.topo.cpusPerCore (a.freeCores rt) with
  | inl r =>
    rw [hwhole] at hspec
    obtain ⟨_, a', ⟨hw', -⟩, -, -, rfl⟩ := hspec
    exact ⟨_, hw'.result, rfl⟩
  | inr a' =>
    rw [hwhole] at hspec
    obtain ⟨_, ⟨hw', -, hcov⟩, -, hneed', hend⟩ := hspec
    rw [ha.topo_eq] at hend
    exact (hw'.not_done hneed' hcov hend).elim

/-- **The first phase, started with `Whole`, and then the second meet the request with whole
cores**, when each core lies on one socket. -/
theorem takeSockets_wholeCores (hu : topo.Uniform) (hcores : topo.CoresOnOneSocket)
    (rt : GoRuntime) (ha : Accounts topo availableCPUs numCPUs a) (hw : Whole topo a)
    (hneed : 1 ≤ a.numCPUsNeeded) : ∃ r, topo.WholeCores r ∧ a.takeSockets rt = .ok r := by
  have hspec := takeWhole_spec
    (P := fun rest a => Whole topo a ∧ topo.Atomic CPUInfo.socketID rest a.details.cpus)
    (fun id rest a ⟨hw, hat⟩ ha _ =>
      (hw.take_atomic hu (wholeCores_cpusInSockets hcores) ha hat).imp_right And.left)
    ha hneed (fun _ hid => (a.card_cpusWith_of_mem_freeSockets hid).le)
    ⟨hw, atomic_freeSockets hu ha⟩
  unfold takeSockets
  cases hwhole : a.takeWhole CPUInfo.socketID a.topo.cpusPerSocket a.freeSockets with
  | inl r =>
    rw [hwhole] at hspec
    obtain ⟨_, a', ⟨hw', -⟩, -, -, rfl⟩ := hspec
    exact ⟨_, hw'.result, rfl⟩
  | inr a' =>
    rw [hwhole] at hspec
    obtain ⟨_, ⟨hw', -⟩, ha', hneed', -⟩ := hspec
    exact takeCores_wholeCores hu rt ha' hw' hneed'

end Whole

end CPUAccumulator

/-! ## Whole cores and whole sockets from `takeByTopology` -/

section TakeByTopology

open CPUAccumulator

variable {rt : GoRuntime} {topo : Topology.CPUTopology} {availableCPUs : Finset ℕ}
  {numCPUs : ℤ} {result : Finset ℕ}

/-- **A request of whole cores, with as many whole cores available, gets whole cores**, on a
uniform topology whose cores each lie on one socket. -/
theorem takeByTopology_wholeCores (hu : topo.Uniform) (hcores : topo.CoresOnOneSocket)
    (hdvd : (topo.cpusPerCore : ℤ) ∣ numCPUs)
    (hfree : numCPUs / topo.cpusPerCore ≤ (topo.freeCoresIn availableCPUs).card)
    (h : takeByTopology rt topo availableCPUs numCPUs = .ok result) : topo.WholeCores result := by
  rw [takeByTopology_eq] at h
  split_ifs at h with hpos
  · cases h
    exact wholeCores_empty
  have hw : Whole topo (newCPUAccumulator topo availableCPUs numCPUs) := by
    refine ⟨wholeCores_empty, hdvd, ?_⟩
    change numCPUs ≤ (topo.wholeCoreCPUs (topo.cpuDetails.keepOnly availableCPUs).cpus).card
    rw [CPUDetails.keepOnly_cpus, card_wholeCoreCPUs hu, Nat.cast_mul]
    calc numCPUs = topo.cpusPerCore * (numCPUs / topo.cpusPerCore) :=
          (Int.mul_ediv_cancel' hdvd).symm
      _ ≤ topo.cpusPerCore * (topo.freeCoresIn availableCPUs).card :=
          mul_le_mul_of_nonneg_left hfree (Nat.cast_nonneg _)
  obtain ⟨r, hr, hsockets⟩ :=
    takeSockets_wholeCores hu hcores rt (accounts_new _ _ _) hw (by change 1 ≤ numCPUs; omega)
  rw [hsockets, Except.ok.injEq] at h
  exact h ▸ hr

/-- Some whole socket of the topology among the CPUs. -/
def HasWholeSocket (topo : Topology.CPUTopology) (cpus : Finset ℕ) : Prop :=
  ∃ s ∈ topo.cpuDetails.sockets, topo.cpuDetails.cpusInSockets s ⊆ cpus

theorem stable_hasWholeSocket :
    Stable topo availableCPUs numCPUs fun a => HasWholeSocket topo a.result := by
  rintro a cpus ⟨s, hs, hsub⟩ - -
  exact ⟨s, hs, hsub.trans Finset.subset_union_left⟩

/-- **A request of at least a socket's worth, with a whole socket available, gets a whole
socket**, on a uniform topology: the first pass of the first phase takes one. -/
theorem takeByTopology_wholeSocket (hu : topo.Uniform)
    (hsocket : HasWholeSocket topo availableCPUs) (hn : (topo.cpusPerSocket : ℤ) ≤ numCPUs)
    (h : takeByTopology rt topo availableCPUs numCPUs = .ok result) :
    HasWholeSocket topo result := by
  obtain ⟨s, hs, hsub⟩ := hsocket
  have hok := (takeByTopology_ok_iff rt topo availableCPUs numCPUs
    (le_trans (Nat.cast_nonneg _) hn)).mp ⟨result, h⟩
  set acc := newCPUAccumulator topo availableCPUs numCPUs
  have ha := accounts_new topo availableCPUs numCPUs
  have hcard : (topo.cpuDetails.cpusWith CPUInfo.socketID s).card = topo.cpusPerSocket :=
    hu.socket_card s hs
  have hwhole : topo.cpuDetails.cpusWith CPUInfo.socketID s ⊆ acc.details.cpus := by
    change _ ⊆ (topo.cpuDetails.keepOnly availableCPUs).cpus
    rw [CPUDetails.keepOnly_cpus]
    exact Finset.subset_inter (CPUDetails.cpusWith_subset _ _ _) hsub
  have hnonempty : (topo.cpuDetails.cpusWith CPUInfo.socketID s).Nonempty := by
    obtain ⟨cpu, hcpu, hsock⟩ := Finset.mem_image.mp hs
    exact ⟨cpu, CPUDetails.mem_cpusWith.mpr ⟨hcpu, hsock⟩⟩
  have hcps : 1 ≤ topo.cpusPerSocket := hcard ▸ hnonempty.card_pos
  have hpos : 1 ≤ numCPUs := by omega
  have hfree : s ∈ acc.freeSockets := by
    refine acc.mem_freeSockets.mpr ⟨?_, decide_eq_true ?_⟩
    · obtain ⟨cpu, hcpu⟩ := hnonempty
      exact Finset.mem_image.mpr ⟨cpu, hwhole hcpu, (CPUDetails.mem_cpusWith.mp hcpu).2⟩
    · rw [CPUDetails.cpusInSockets, ha.cpusWith, Finset.inter_eq_right.mpr hwhole]
      exact_mod_cast hcard
  rw [takeByTopology_eq, if_neg (by omega), if_neg (by omega)] at h
  obtain ⟨s₀, rest₀, hlist⟩ := List.exists_cons_of_ne_nil (List.ne_nil_of_mem hfree)
  let P : List ℤ → CPUAccumulator → Prop := fun rest a =>
    (rest = s₀ :: rest₀ ∧ a = acc) ∨ HasWholeSocket topo a.result
  have hspec := takeWhole_spec (P := P)
    (fun id rest a hPa ha' _ => by
      rcases hPa with ⟨hrest, rfl⟩ | hhas
      · obtain ⟨hid, -⟩ := List.cons.inj hrest
        rw [hid]
        have hs₀ : s₀ ∈ acc.freeSockets := hlist ▸ List.mem_cons_self
        have hall := (atomic_freeSockets hu ha s₀ hs₀).resolve_right ?_
        · refine .inr ⟨s₀, ha.mem_sockets (acc.mem_freeSockets.mp hs₀).1, ?_⟩
          rw [take_result, ha.cpusWith, Finset.inter_eq_right.mpr hall]
          exact Finset.subset_union_right
        · intro hdisj
          have hc := acc.card_cpusWith_of_mem_freeSockets hs₀
          rw [ha.cpusWith, Finset.disjoint_iff_inter_eq_empty.mp hdisj.symm, ha.topo_eq] at hc
          simp only [Finset.card_empty, Nat.cast_zero] at hc
          omega
      · exact .inr (stable_hasWholeSocket a _ hhas ha' (CPUDetails.cpusWith_subset _ _ _)))
    ha (by change 1 ≤ numCPUs; omega)
    (fun _ hid => (acc.card_cpusWith_of_mem_freeSockets hid).le) (.inl ⟨hlist, rfl⟩)
  unfold takeSockets at h
  cases hwh : acc.takeWhole CPUInfo.socketID acc.topo.cpusPerSocket acc.freeSockets with
  | inl r =>
    rw [hwh] at hspec h
    dsimp only at h
    rw [Except.ok.injEq] at h
    obtain ⟨_, a, hPa, -, hdone, rfl⟩ := hspec
    rcases hPa with ⟨-, rfl⟩ | hhas
    · change numCPUs = 0 at hdone
      omega
    · exact h ▸ hhas
  | inr a =>
    rw [hwh] at hspec h
    dsimp only at h
    obtain ⟨rest, hPa, ha', hneed, hend⟩ := hspec
    rcases hPa with ⟨rfl, rfl⟩ | hhas
    · rcases hend with hnil | hlt
      · exact absurd hnil (List.cons_ne_nil _ _)
      · change numCPUs < topo.cpusPerSocket at hlt
        omega
    obtain ⟨r, ⟨a', hhas', -, -, rfl⟩, hcores⟩ := takeCores_spec stable_hasWholeSocket rt hok ha'
      hneed hhas
    rw [hcores, Except.ok.injEq] at h
    exact h ▸ hhas'

variable (rt topo availableCPUs numCPUs) in
/-- **`takeByTopology` on a uniform topology.** It succeeds exactly when there are `numCPUs`
available CPUs in the topology, and then returns `numCPUs` of them; a request of whole cores
with as many whole cores available gets whole cores, when each core lies on one socket; and a
request of at least a socket's worth with a whole socket available gets a whole socket. -/
theorem takeByTopology_spec (h0 : 0 ≤ numCPUs) (hu : topo.Uniform) :
    ((∃ result, takeByTopology rt topo availableCPUs numCPUs = .ok result) ↔
        numCPUs ≤ (availableCPUs ∩ topo.cpuDetails.cpus).card) ∧
      ∀ result, takeByTopology rt topo availableCPUs numCPUs = .ok result →
        result ⊆ availableCPUs ∧ (result.card : ℤ) = numCPUs ∧
        (topo.CoresOnOneSocket → (topo.cpusPerCore : ℤ) ∣ numCPUs →
          numCPUs / topo.cpusPerCore ≤ (topo.freeCoresIn availableCPUs).card →
          topo.WholeCores result) ∧
        (HasWholeSocket topo availableCPUs → (topo.cpusPerSocket : ℤ) ≤ numCPUs →
          HasWholeSocket topo result) := by
  rw [Finset.inter_comm]
  refine ⟨takeByTopology_ok_iff rt topo availableCPUs numCPUs h0, fun result h => ?_⟩
  obtain ⟨hsub, hcard⟩ := takeByTopology_eq_ok rt topo availableCPUs numCPUs h0 h
  exact ⟨hsub.trans Finset.inter_subset_right, hcard,
    fun hcores hdvd hfree => takeByTopology_wholeCores hu hcores hdvd hfree h,
    fun hsocket hn => takeByTopology_wholeSocket hu hsocket hn h⟩

theorem uniform_topoDualSocketHT : topoDualSocketHT.Uniform := ⟨by decide, by decide⟩

/-- `takeByTopology_spec` on the tests' dual-socket topology, asked for six of its twelve
CPUs. -/
theorem takeByTopology_spec_topoDualSocketHT :
    (0 : ℤ) ≤ 6 ∧ topoDualSocketHT.Uniform ∧
    (((∃ result, takeByTopology GoRuntime.inOrder topoDualSocketHT (Finset.range 12) 6 =
          .ok result) ↔
        6 ≤ ((Finset.range 12 ∩ topoDualSocketHT.cpuDetails.cpus).card : ℤ)) ∧
      ∀ result, takeByTopology GoRuntime.inOrder topoDualSocketHT (Finset.range 12) 6 =
          .ok result →
        result ⊆ Finset.range 12 ∧ (result.card : ℤ) = 6 ∧
        (topoDualSocketHT.CoresOnOneSocket → (topoDualSocketHT.cpusPerCore : ℤ) ∣ 6 →
          6 / (topoDualSocketHT.cpusPerCore : ℤ) ≤
            (topoDualSocketHT.freeCoresIn (Finset.range 12)).card →
          topoDualSocketHT.WholeCores result) ∧
        (HasWholeSocket topoDualSocketHT (Finset.range 12) →
          (topoDualSocketHT.cpusPerSocket : ℤ) ≤ 6 → HasWholeSocket topoDualSocketHT result)) :=
  ⟨by decide, uniform_topoDualSocketHT, takeByTopology_spec GoRuntime.inOrder topoDualSocketHT
    (Finset.range 12) 6 (by decide) uniform_topoDualSocketHT⟩

/-- Two sockets sharing two cores: CPU `i` is on socket `i / 2` and core `i % 2`. -/
def sharedCoresTopology : Topology.CPUTopology where
  numCPUs := 4
  numCores := 2
  numSockets := 2
  cpuDetails := ⟨Finset.range 4, fun cpu => ⟨0, cpu / 2, cpu % 2⟩⟩

/-- On these shared cores, whatever the runtime's orders, the first pass of the first phase takes
socket 0, CPUs 0 and 1, and meets a request for two CPUs. -/
theorem takeByTopology_sharedCoresTopology (rt : GoRuntime) :
    takeByTopology rt sharedCoresTopology (Finset.range 4) 2 = .ok {0, 1} := by
  unfold takeByTopology
  dsimp only
  rw [if_neg (by decide), if_neg (by decide), CPUAccumulator.takeSockets]
  set acc := newCPUAccumulator sharedCoresTopology (Finset.range 4) 2
  have hsocket : (acc.takeWhole CPUInfo.socketID acc.topo.cpusPerSocket acc.freeSockets).getLeft? =
      some {0, 1} := by
    decide
  rw [Sum.getLeft?_eq_some_iff.mp hsocket]

/-- **Without cores on one socket, whole cores are not kept.** On a uniform topology whose two
sockets share their two cores, two CPUs, one core's worth, with both cores available, are a
whole socket, which the first phase takes: CPUs 0 and 1, half of each core. -/
theorem takeByTopology_splits_shared_cores :
    sharedCoresTopology.Uniform ∧ ¬ sharedCoresTopology.CoresOnOneSocket ∧
      (sharedCoresTopology.cpusPerCore : ℤ) ∣ 2 ∧
      2 / (sharedCoresTopology.cpusPerCore : ℤ) ≤
        (sharedCoresTopology.freeCoresIn (Finset.range 4)).card ∧
      takeByTopology GoRuntime.inOrder sharedCoresTopology (Finset.range 4) 2 = .ok {0, 1} ∧
      ¬ sharedCoresTopology.WholeCores {0, 1} :=
  ⟨⟨by decide, by decide⟩, by unfold CoresOnOneSocket; decide, by decide, by decide,
    takeByTopology_sharedCoresTopology GoRuntime.inOrder, by decide⟩

end TakeByTopology

end Kubernetes.CPUManager
