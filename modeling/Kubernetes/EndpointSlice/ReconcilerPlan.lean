import Mathlib
import Kubernetes.EndpointSlice.ReconcilerCurrent

/-!
# The plan of `reconcileByPortMapping`

What the plan `reconcileByPortMapping` makes for one group of ports promises, once
`maxEndpointsPerSlice` is positive and the existing slices have distinct, non-empty names, as
objects of the API do:

* `reconcileByPortMapping_places_desired_once`: it returns, and the slices the Service has once the
  plan is applied (the slices created, the slices updated, and the existing slices neither updated
  nor deleted, which `unchangedSlices` finds) hold the hash of every desired endpoint once, and no
  other hash;
* `reconcileByPortMapping_plan`: a slice to create has no name yet and holds between one and
  `maxEndpointsPerSlice` desired endpoints, a slice to delete is an existing slice, an existing
  slice is updated or deleted at most once, and the slices updated stay within the limit when the
  existing ones were;
* `reconcileByPortMapping_counts`: the endpoints added and removed account for the endpoints
  before and after, and the number of slices `reconcileByAddressType` records for the group is the
  number after.

All three read the state step 3 ends in (`reconcileByPortMapping_run`), where `Placement` holds and
nothing is left to place; the unchanged slices are those under the names marked unchanged
(`Placement.unchangedSlices_perm`).
-/

namespace Kubernetes.EndpointSliceReconciler

open Bins (contents)

/-! ## The unchanged slices -/

theorem mem_foldl_insert_name {n : String} (slices : List EndpointSlice) (names : List String) :
    n ∈ slices.foldl (fun names slice => names.insert slice.name) names ↔
      n ∈ names ∨ n ∈ slices.map (·.name) := by
  induction slices generalizing names with
  | nil => simp
  | cons slice slices ih =>
    rw [List.foldl_cons, ih, List.mem_insert_iff, List.map_cons, List.mem_cons]
    tauto

theorem mem_unchangedSlices {existingSlices slicesToUpdate slicesToDelete : List EndpointSlice}
    {slice : EndpointSlice} :
    slice ∈ unchangedSlices existingSlices slicesToUpdate slicesToDelete ↔
      slice ∈ existingSlices ∧ slice.name ∉ (slicesToUpdate ++ slicesToDelete).map (·.name) := by
  simp only [unchangedSlices, List.mem_filter, decide_eq_true_eq, mem_foldl_insert_name,
    List.not_mem_nil, false_or]

/-- The slices under marked names carry those names, in order. -/
theorem Marked.map_name_filterMap {processed : List EndpointSlice} {st : PortMappingState}
    (h : Marked processed st) (names : List String) (hsub : ∀ n ∈ names, n ∈ st.names) :
    (names.filterMap st.slicesByName.lookup).map (·.name) = names :=
  map_name_filterMap_lookup fun n hn => h.lookup_name n (hsub n hn)

section

variable {maxEndpointsPerSlice : ℕ} {desiredSet : EndpointSet}
  {existingSlices slicesToCreate : List EndpointSlice} {st : PortMappingState}

theorem PortMappingState.mem_names {st : PortMappingState} {n : String} :
    n ∈ st.names ↔ n ∈ st.sliceNamesUnchanged ∨ n ∈ st.sliceNamesToUpdate ∨
      n ∈ st.sliceNamesToDelete := by
  simp only [PortMappingState.names, List.mem_append, or_assoc]

/-- **`unchangedSlices` finds the slices marked unchanged**: an existing slice that is neither
updated nor deleted is under a name marked unchanged, and the slice there is the existing one. -/
theorem Placement.unchangedSlices_perm
    (h : Placement maxEndpointsPerSlice desiredSet existingSlices st slicesToCreate)
    (hnd : (existingSlices.map (·.name)).Nodup) :
    (unchangedSlices existingSlices (st.sliceNamesToUpdate.filterMap st.slicesByName.lookup)
        (st.sliceNamesToDelete.filterMap st.slicesByName.lookup)).Perm
      (st.sliceNamesUnchanged.filterMap st.slicesByName.lookup) := by
  have hU := h.marked.map_name_filterMap st.sliceNamesUnchanged fun n hn =>
    PortMappingState.mem_names.mpr (.inl hn)
  have hchanged : ((st.sliceNamesToUpdate.filterMap st.slicesByName.lookup ++
      st.sliceNamesToDelete.filterMap st.slicesByName.lookup).map (·.name)) =
        st.sliceNamesToUpdate ++ st.sliceNamesToDelete := by
    rw [List.map_append, h.marked.map_name_filterMap _ fun n hn =>
      PortMappingState.mem_names.mpr (.inr (.inl hn)), h.marked.map_name_filterMap _ fun n hn =>
      PortMappingState.mem_names.mpr (.inr (.inr hn))]
  have hdisj : ∀ n ∈ st.sliceNamesUnchanged, n ∉ st.sliceNamesToUpdate ++ st.sliceNamesToDelete :=
    by
    have hnodup := h.marked.nodup
    rw [PortMappingState.names, List.append_assoc, List.nodup_append] at hnodup
    exact fun n hn hn' => hnodup.2.2 n hn n hn' rfl
  have hnodupU : (st.sliceNamesUnchanged.filterMap st.slicesByName.lookup).Nodup := by
    refine List.Nodup.of_map (·.name) ?_
    rw [hU]
    exact h.marked.nodup.sublist ((List.sublist_append_left _ _).trans (List.sublist_append_left _ _))
  have hnodup : (unchangedSlices existingSlices
      (st.sliceNamesToUpdate.filterMap st.slicesByName.lookup)
      (st.sliceNamesToDelete.filterMap st.slicesByName.lookup)).Nodup :=
    (hnd.of_map _).filter _
  refine (List.perm_ext_iff_of_nodup hnodup hnodupU).mpr fun slice => ?_
  rw [mem_unchangedSlices, hchanged, List.mem_filterMap]
  constructor
  · rintro ⟨hslice, hn⟩
    have hnU : slice.name ∈ st.sliceNamesUnchanged := by
      rcases PortMappingState.mem_names.mp ((h.marked.mem_names _).mpr
        (List.mem_map_of_mem hslice)) with hnU | hnT | hnX
      · exact hnU
      · exact absurd (List.mem_append_left _ hnT) hn
      · exact absurd (List.mem_append_right _ hnX) hn
    obtain ⟨slice', hs', hname⟩ :=
      h.marked.lookup_name _ (PortMappingState.mem_names.mpr (.inl hnU))
    have hslice' := h.lookup_processed _ (.inl hnU) slice' hs'
    have heq : slice' = slice := List.inj_on_of_nodup_map hnd hslice' hslice hname
    exact ⟨slice.name, hnU, heq ▸ hs'⟩
  · rintro ⟨n, hnU, hs⟩
    obtain ⟨slice', hs', hname⟩ :=
      h.marked.lookup_name n (PortMappingState.mem_names.mpr (.inl hnU))
    rw [hs, Option.some.injEq] at hs'
    subst hs'
    exact ⟨h.lookup_processed n (.inl hnU) slice hs, hname ▸ hdisj n hnU⟩

/-- The slices the Service has once the plan is applied, as hashes. -/
theorem Placement.applied_perm
    (h : Placement maxEndpointsPerSlice desiredSet existingSlices st slicesToCreate)
    (hnd : (existingSlices.map (·.name)).Nodup) :
    ((slicesToCreate ++ st.sliceNamesToUpdate.filterMap st.slicesByName.lookup ++
        unchangedSlices existingSlices (st.sliceNamesToUpdate.filterMap st.slicesByName.lookup)
          (st.sliceNamesToDelete.filterMap st.slicesByName.lookup)).flatMap sliceHashes).Perm
      (placed st slicesToCreate) := by
  have hunchanged := ((h.unchangedSlices_perm hnd).flatMap_right sliceHashes).append_left
    ((slicesToCreate ++ st.sliceNamesToUpdate.filterMap st.slicesByName.lookup).flatMap sliceHashes)
  rw [← List.flatMap_append] at hunchanged
  refine hunchanged.trans ?_
  simp only [placed, PortMappingState.live, contents, List.filterMap_append, List.flatMap_append]
  refine (List.perm_append_comm.trans ?_)
  rw [List.append_assoc]
  exact (List.perm_append_comm.append_left _)

/-- A slice to update is an existing slice, by name. -/
theorem Placement.mem_names_of_updated
    (h : Placement maxEndpointsPerSlice desiredSet existingSlices st slicesToCreate)
    {slice : EndpointSlice} (hslice : slice ∈ st.sliceNamesToUpdate.filterMap st.slicesByName.lookup) :
    slice.name ∈ existingSlices.map (·.name) := by
  obtain ⟨n, hn, hs⟩ := List.mem_filterMap.mp hslice
  obtain ⟨slice', hs', hname⟩ :=
    h.marked.lookup_name n (PortMappingState.mem_names.mpr (.inr (.inl hn)))
  rw [hs, Option.some.injEq] at hs'
  subst hs'
  rw [hname, ← h.marked.mem_names]
  exact PortMappingState.mem_names.mpr (.inr (.inl hn))

/-- A slice to delete is an existing slice. -/
theorem Placement.mem_of_deleted
    (h : Placement maxEndpointsPerSlice desiredSet existingSlices st slicesToCreate)
    {slice : EndpointSlice} (hslice : slice ∈ st.sliceNamesToDelete.filterMap st.slicesByName.lookup) :
    slice ∈ existingSlices := by
  obtain ⟨n, hn, hs⟩ := List.mem_filterMap.mp hslice
  exact h.lookup_processed n (.inr hn) slice hs

/-- The slices to update and to delete have distinct names. -/
theorem Placement.changed_nodup
    (h : Placement maxEndpointsPerSlice desiredSet existingSlices st slicesToCreate) :
    ((st.sliceNamesToUpdate.filterMap st.slicesByName.lookup ++
      st.sliceNamesToDelete.filterMap st.slicesByName.lookup).map (·.name)).Nodup := by
  rw [List.map_append, h.marked.map_name_filterMap _ fun n hn =>
    PortMappingState.mem_names.mpr (.inr (.inl hn)), h.marked.map_name_filterMap _ fun n hn =>
    PortMappingState.mem_names.mpr (.inr (.inr hn))]
  exact h.marked.nodup.sublist (by
    rw [PortMappingState.names, List.append_assoc]
    exact List.sublist_append_right _ _)

/-- With nothing left to place, the placed hashes are those of the desired set. -/
theorem Placement.placed_perm
    (h : Placement maxEndpointsPerSlice desiredSet existingSlices st slicesToCreate)
    (hlen : st.desiredSet.Len = 0) :
    (placed st slicesToCreate).Perm (desiredSet.endpoints.map hashEndpoint) := by
  have hempty : st.desiredSet.endpoints = [] := List.eq_nil_of_length_eq_zero hlen
  simpa only [hempty, List.map_nil, List.append_nil] using h.perm

end

/-! ## The run -/

variable (service : Service) (endpointMeta : EndpointMeta) {maxEndpointsPerSlice : ℕ}
  {existingSlices : List EndpointSlice} (desiredSet : EndpointSet)

/-- **`reconcileByPortMapping` returns**, with the plan read off the state step 3 ends in, where
the invariants hold and no desired endpoint is left to place. -/
theorem reconcileByPortMapping_run (hpos : 0 < maxEndpointsPerSlice)
    (hnd : (existingSlices.map (·.name)).Nodup)
    (hnames : ∀ slice ∈ existingSlices, slice.name ≠ "") :
    ∃ st slicesToCreate,
      reconcileByPortMapping service maxEndpointsPerSlice existingSlices desiredSet endpointMeta =
        some (slicesToCreate, st.sliceNamesToUpdate.filterMap st.slicesByName.lookup,
          st.sliceNamesToDelete.filterMap st.slicesByName.lookup,
          (existingSlices.foldl (reconcileExistingSlice service)
            (PortMappingState.init desiredSet)).desiredSet.Len, st.numRemoved) ∧
      Placement maxEndpointsPerSlice desiredSet existingSlices st slicesToCreate ∧
      st.desiredSet.Len = 0 ∧ Current service desiredSet st slicesToCreate ∧
      st.numRemoved = (existingSlices.foldl (reconcileExistingSlice service)
        (PortMappingState.init desiredSet)).numRemoved := by
  have h₀ : Placement maxEndpointsPerSlice desiredSet [] (PortMappingState.init desiredSet) [] :=
    Placement.init
  have h₁ := h₀.foldl_reconcileExistingSlice service existingSlices (by simpa using hnd)
  have hC₀ : Current service desiredSet (PortMappingState.init desiredSet) [] := Current.init
  have hC₁ := Current.foldl_reconcileExistingSlice existingSlices h₀ hC₀ (by simpa using hnd)
  rw [List.nil_append] at h₁
  obtain ⟨st, slicesToCreate, hrun, h, hlen, hrem⟩ :=
    h₁.of_fillSlicesToUpdate.of_fillRemaining service endpointMeta hnames hpos _ le_rfl
  have hC := (hC₁.of_fillSlicesToUpdate h₁).of_fillRemaining endpointMeta h₁.of_fillSlicesToUpdate
    hnames hpos _ hrun
  refine ⟨st, slicesToCreate, ?_, h, hlen, hC, hrem.trans (fillSlicesToUpdate_numRemoved _ _)⟩
  unfold reconcileByPortMapping
  simp only [hrun]

/-- **Every desired endpoint is placed once.** `reconcileByPortMapping` returns, and the hashes in
the slices it creates, the slices it updates and the existing slices it leaves unchanged are the
hashes of the desired endpoints, each once. -/
theorem reconcileByPortMapping_places_desired_once (hpos : 0 < maxEndpointsPerSlice)
    (hnd : (existingSlices.map (·.name)).Nodup)
    (hnames : ∀ slice ∈ existingSlices, slice.name ≠ "") :
    ∃ slicesToCreate slicesToUpdate slicesToDelete numAdded numRemoved,
      reconcileByPortMapping service maxEndpointsPerSlice existingSlices desiredSet endpointMeta =
        some (slicesToCreate, slicesToUpdate, slicesToDelete, numAdded, numRemoved) ∧
      ((slicesToCreate ++ slicesToUpdate ++
          unchangedSlices existingSlices slicesToUpdate slicesToDelete).flatMap sliceHashes).Perm
        (desiredSet.endpoints.map hashEndpoint) := by
  obtain ⟨st, slicesToCreate, hrun, h, hlen, -⟩ :=
    reconcileByPortMapping_run service endpointMeta desiredSet hpos hnd hnames
  exact ⟨_, _, _, _, _, hrun, (h.applied_perm hnd).trans (h.placed_perm hlen)⟩

/-- Slice `web-1` keeps one of its two endpoints, two endpoints are new, and a slice holds two: the
slices after the plan hold the three desired endpoints once each. -/
theorem reconcileByPortMapping_places_desired_once_web :
    ∃ (existingSlices : List EndpointSlice) (desiredSet : EndpointSet),
      existingSlices = [⟨"web-1", "web-", [], ∅, .ipv4, [],
        [⟨["10.1.0.1"], none, ⟨some true, none, none⟩, none, none, none⟩,
          ⟨["10.1.0.2"], none, ⟨some true, none, none⟩, none, none, none⟩]⟩] ∧
      desiredSet = ((EndpointSet.empty.Insert
        ⟨["10.1.0.1"], none, ⟨some true, none, none⟩, none, none, none⟩).Insert
        ⟨["10.1.0.3"], none, ⟨some true, none, none⟩, none, none, none⟩).Insert
        ⟨["10.1.0.4"], none, ⟨some true, none, none⟩, none, none, none⟩ ∧
      0 < 2 ∧ (existingSlices.map (·.name)).Nodup ∧ (∀ slice ∈ existingSlices, slice.name ≠ "") ∧
      ∃ slicesToCreate slicesToUpdate slicesToDelete numAdded numRemoved,
        reconcileByPortMapping ⟨"web", "u", ∅, "10.0.0.1"⟩ 2 existingSlices desiredSet ⟨[], .ipv4⟩ =
          some (slicesToCreate, slicesToUpdate, slicesToDelete, numAdded, numRemoved) ∧
        ((slicesToCreate ++ slicesToUpdate ++
            unchangedSlices existingSlices slicesToUpdate slicesToDelete).flatMap sliceHashes).Perm
          (desiredSet.endpoints.map hashEndpoint) :=
  ⟨_, _, rfl, rfl, by decide, by decide, by decide,
    reconcileByPortMapping_places_desired_once ⟨"web", "u", ∅, "10.0.0.1"⟩ ⟨[], .ipv4⟩ _
      (by decide) (by decide) (by decide)⟩

/-- **The plan is well formed.** A slice to create has no name yet and holds between one and
`maxEndpointsPerSlice` desired endpoints; the slices to update and to delete are existing slices,
each named once among them; and the slices updated hold at most `maxEndpointsPerSlice` endpoints
when the existing slices did. -/
theorem reconcileByPortMapping_plan (hpos : 0 < maxEndpointsPerSlice)
    (hnd : (existingSlices.map (·.name)).Nodup)
    (hnames : ∀ slice ∈ existingSlices, slice.name ≠ "") :
    ∃ slicesToCreate slicesToUpdate slicesToDelete numAdded numRemoved,
      reconcileByPortMapping service maxEndpointsPerSlice existingSlices desiredSet endpointMeta =
        some (slicesToCreate, slicesToUpdate, slicesToDelete, numAdded, numRemoved) ∧
      (∀ slice ∈ slicesToCreate, slice.name = "" ∧ 0 < slice.endpoints.length ∧
        slice.endpoints.length ≤ maxEndpointsPerSlice ∧
        ∀ endpoint ∈ slice.endpoints, endpoint ∈ desiredSet.endpoints) ∧
      (∀ slice ∈ slicesToUpdate, slice.name ∈ existingSlices.map (·.name)) ∧
      (∀ slice ∈ slicesToDelete, slice ∈ existingSlices) ∧
      ((slicesToUpdate ++ slicesToDelete).map (·.name)).Nodup ∧
      ((∀ slice ∈ existingSlices, slice.endpoints.length ≤ maxEndpointsPerSlice) →
        ∀ slice ∈ slicesToUpdate, slice.endpoints.length ≤ maxEndpointsPerSlice) := by
  obtain ⟨st, slicesToCreate, hrun, h, -, -⟩ :=
    reconcileByPortMapping_run service endpointMeta desiredSet hpos hnd hnames
  refine ⟨_, _, _, _, _, hrun, h.created, fun _ => h.mem_names_of_updated,
    fun _ => h.mem_of_deleted, h.changed_nodup, fun hle slice hslice => ?_⟩
  obtain ⟨n, hn, hs⟩ := List.mem_filterMap.mp hslice
  exact h.updated_le hle n hn slice hs

/-- The same run: `web-1` is updated, and the endpoint left over goes to a new slice. -/
theorem reconcileByPortMapping_plan_web :
    ∃ (existingSlices : List EndpointSlice) (desiredSet : EndpointSet),
      existingSlices = [⟨"web-1", "web-", [], ∅, .ipv4, [],
        [⟨["10.1.0.1"], none, ⟨some true, none, none⟩, none, none, none⟩,
          ⟨["10.1.0.2"], none, ⟨some true, none, none⟩, none, none, none⟩]⟩] ∧
      desiredSet = ((EndpointSet.empty.Insert
        ⟨["10.1.0.1"], none, ⟨some true, none, none⟩, none, none, none⟩).Insert
        ⟨["10.1.0.3"], none, ⟨some true, none, none⟩, none, none, none⟩).Insert
        ⟨["10.1.0.4"], none, ⟨some true, none, none⟩, none, none, none⟩ ∧
      0 < 2 ∧ (existingSlices.map (·.name)).Nodup ∧ (∀ slice ∈ existingSlices, slice.name ≠ "") ∧
      ∃ slicesToCreate slicesToUpdate slicesToDelete numAdded numRemoved,
        reconcileByPortMapping ⟨"web", "u", ∅, "10.0.0.1"⟩ 2 existingSlices desiredSet ⟨[], .ipv4⟩ =
          some (slicesToCreate, slicesToUpdate, slicesToDelete, numAdded, numRemoved) ∧
        (∀ slice ∈ slicesToCreate, slice.name = "" ∧ 0 < slice.endpoints.length ∧
          slice.endpoints.length ≤ 2 ∧
          ∀ endpoint ∈ slice.endpoints, endpoint ∈ desiredSet.endpoints) ∧
        (∀ slice ∈ slicesToUpdate, slice.name ∈ existingSlices.map (·.name)) ∧
        (∀ slice ∈ slicesToDelete, slice ∈ existingSlices) ∧
        ((slicesToUpdate ++ slicesToDelete).map (·.name)).Nodup ∧
        ((∀ slice ∈ existingSlices, slice.endpoints.length ≤ 2) →
          ∀ slice ∈ slicesToUpdate, slice.endpoints.length ≤ 2) :=
  ⟨_, _, rfl, rfl, by decide, by decide, by decide,
    reconcileByPortMapping_plan ⟨"web", "u", ∅, "10.0.0.1"⟩ ⟨[], .ipv4⟩ _
      (by decide) (by decide) (by decide)⟩

/-! ## The counts -/

@[simp] theorem PortMappingState.init_desiredSet :
    (PortMappingState.init desiredSet).desiredSet = desiredSet := rfl

@[simp] theorem PortMappingState.init_numRemoved :
    (PortMappingState.init desiredSet).numRemoved = 0 := rfl

/-- Step 1 counts as removed what the slices lose: the endpoints of the slices processed and those
still desired are those desired before and those removed. -/
theorem foldl_reconcileExistingSlice_count (slices : List EndpointSlice) (st : PortMappingState) :
    (slices.foldl (reconcileExistingSlice service) st).desiredSet.Len +
        (slices.map (·.endpoints.length)).sum + st.numRemoved =
      st.desiredSet.Len + (slices.foldl (reconcileExistingSlice service) st).numRemoved := by
  induction slices generalizing st with
  | nil => simp
  | cons slice slices ih =>
    obtain ⟨-, kept, -, -, -, hperm, -, hrem, hlen, -⟩ := reconcileExistingSlice_cases service st slice
    have hkept := hperm.length_eq
    rw [List.length_append, List.length_map, List.length_map, List.length_map] at hkept
    have hih := ih (reconcileExistingSlice service st slice)
    simp only [List.foldl_cons, List.map_cons, List.sum_cons, EndpointSet.Len] at hih hrem ⊢
    omega

/-- **The counts are right.** The endpoints in the slices once the plan is applied, with the
endpoints removed, are the endpoints of the existing slices with the endpoints added; and the
number of slices `reconcileByAddressType` records for the group, the existing ones with those
created and without those deleted, is the number of slices once the plan is applied. -/
theorem reconcileByPortMapping_counts (hpos : 0 < maxEndpointsPerSlice)
    (hnd : (existingSlices.map (·.name)).Nodup)
    (hnames : ∀ slice ∈ existingSlices, slice.name ≠ "") :
    ∃ slicesToCreate slicesToUpdate slicesToDelete numAdded numRemoved,
      reconcileByPortMapping service maxEndpointsPerSlice existingSlices desiredSet endpointMeta =
        some (slicesToCreate, slicesToUpdate, slicesToDelete, numAdded, numRemoved) ∧
      ((slicesToCreate ++ slicesToUpdate ++ unchangedSlices existingSlices slicesToUpdate
          slicesToDelete).map (·.endpoints.length)).sum + numRemoved =
        (existingSlices.map (·.endpoints.length)).sum + numAdded ∧
      existingSlices.length + slicesToCreate.length - slicesToDelete.length =
        (slicesToCreate ++ slicesToUpdate ++
          unchangedSlices existingSlices slicesToUpdate slicesToDelete).length := by
  obtain ⟨st, slicesToCreate, hrun, h, hlen, -, hrem⟩ :=
    reconcileByPortMapping_run service endpointMeta desiredSet hpos hnd hnames
  refine ⟨_, _, _, _, _, hrun, ?_, ?_⟩
  · -- the endpoints after are the desired ones; step 1 accounts for them
    have hafter := ((h.applied_perm hnd).trans (h.placed_perm hlen)).length_eq
    have hcount := foldl_reconcileExistingSlice_count service existingSlices
      (PortMappingState.init desiredSet)
    rw [List.length_flatMap, List.length_map] at hafter
    simp only [sliceHashes, List.length_map] at hafter
    simp only [PortMappingState.init_desiredSet, PortMappingState.init_numRemoved,
      EndpointSet.Len, add_zero] at hcount
    rw [hafter, hrem, EndpointSet.Len]
    omega
  · -- the marked names are the names of the existing slices, each once
    have hnames' : st.names.Perm (existingSlices.map (·.name)) :=
      (List.perm_ext_iff_of_nodup h.marked.nodup hnd).mpr h.marked.mem_names
    have hlengths := hnames'.length_eq
    have hT := congrArg List.length (h.marked.map_name_filterMap
      st.sliceNamesToUpdate fun n hn => PortMappingState.mem_names.mpr (.inr (.inl hn)))
    have hX := congrArg List.length (h.marked.map_name_filterMap
      st.sliceNamesToDelete fun n hn => PortMappingState.mem_names.mpr (.inr (.inr hn)))
    have hU := congrArg List.length (h.marked.map_name_filterMap
      st.sliceNamesUnchanged fun n hn => PortMappingState.mem_names.mpr (.inl hn))
    have hunchanged := (h.unchangedSlices_perm hnd).length_eq
    simp only [PortMappingState.names, List.length_append, List.length_map] at hlengths hT hX hU ⊢
    omega

/-- The same run: three endpoints after and one removed, as two before and two added; two slices
after, as one before and one created. -/
theorem reconcileByPortMapping_counts_web :
    ∃ (existingSlices : List EndpointSlice) (desiredSet : EndpointSet),
      existingSlices = [⟨"web-1", "web-", [], ∅, .ipv4, [],
        [⟨["10.1.0.1"], none, ⟨some true, none, none⟩, none, none, none⟩,
          ⟨["10.1.0.2"], none, ⟨some true, none, none⟩, none, none, none⟩]⟩] ∧
      desiredSet = ((EndpointSet.empty.Insert
        ⟨["10.1.0.1"], none, ⟨some true, none, none⟩, none, none, none⟩).Insert
        ⟨["10.1.0.3"], none, ⟨some true, none, none⟩, none, none, none⟩).Insert
        ⟨["10.1.0.4"], none, ⟨some true, none, none⟩, none, none, none⟩ ∧
      0 < 2 ∧ (existingSlices.map (·.name)).Nodup ∧ (∀ slice ∈ existingSlices, slice.name ≠ "") ∧
      ∃ slicesToCreate slicesToUpdate slicesToDelete numAdded numRemoved,
        reconcileByPortMapping ⟨"web", "u", ∅, "10.0.0.1"⟩ 2 existingSlices desiredSet ⟨[], .ipv4⟩ =
          some (slicesToCreate, slicesToUpdate, slicesToDelete, numAdded, numRemoved) ∧
        ((slicesToCreate ++ slicesToUpdate ++ unchangedSlices existingSlices slicesToUpdate
            slicesToDelete).map (·.endpoints.length)).sum + numRemoved =
          (existingSlices.map (·.endpoints.length)).sum + numAdded ∧
        existingSlices.length + slicesToCreate.length - slicesToDelete.length =
          (slicesToCreate ++ slicesToUpdate ++
            unchangedSlices existingSlices slicesToUpdate slicesToDelete).length :=
  ⟨_, _, rfl, rfl, by decide, by decide, by decide,
    reconcileByPortMapping_counts ⟨"web", "u", ∅, "10.0.0.1"⟩ ⟨[], .ipv4⟩ _
      (by decide) (by decide) (by decide)⟩

end Kubernetes.EndpointSliceReconciler
