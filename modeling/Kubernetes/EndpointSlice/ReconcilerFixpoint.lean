import Mathlib
import Kubernetes.EndpointSlice.ReconcilerPlan

/-!
# A second run plans nothing

`reconcileByPortMapping` plans nothing for slices that are current and hold every desired endpoint
once (`reconcileByPortMapping_of_current`): step 1 finds, for each endpoint, its desired version,
equal beyond the hash, so it keeps every slice unchanged and leaves nothing desired, and steps 2
and 3 have nothing to place. Step 1 takes out of the desired set exactly the hashes of the
endpoints it reads (`keepDesired_set`).

Two results follow:

* `reconcileByPortMapping_skips_unread_fields`: a change to an endpoint that
  `EndpointsEqualBeyondHash` does not read (its zone, its node name, its serving or terminating
  condition) is never written, since that function compares the node name and the zone of its first
  endpoint with themselves;
* `reconcileByPortMapping_fixpoint`: once the plan of a run is applied, a second run plans nothing.
  The slices then are current (`Current`, kept by every step) and hold every desired endpoint once
  (`Placement`).
-/

namespace Kubernetes.EndpointSliceReconciler

/-! ## The desired set through step 1 -/

/-- The set holds one endpoint of each hash, and `Get` finds it. -/
theorem EndpointSet.Get_eq_some_of_mem {s : EndpointSet} {item d : Endpoint}
    (hd : d ∈ s.endpoints) (hhash : hashEndpoint d = hashEndpoint item) : s.Get item = some d := by
  obtain ⟨got, hgot⟩ : ∃ got, s.Get item = some got := Option.isSome_iff_exists.mp
    (List.find?_isSome.mpr ⟨d, hd, by simpa using hhash⟩)
  obtain ⟨hmem, hgothash⟩ := EndpointSet.Get_eq_some hgot
  rw [hgot, List.inj_on_of_nodup_map s.nodup hmem hd (hgothash.trans hhash.symm)]

theorem EndpointSet.Get_eq_none {s : EndpointSet} {item : Endpoint} (h : s.Get item = none) :
    ∀ d ∈ s.endpoints, hashEndpoint d ≠ hashEndpoint item := fun d hd hhash => by
  rw [EndpointSet.Get_eq_some_of_mem hd hhash] at h
  cases h

/-- Step 1 over the endpoints of a slice takes the endpoints of their hashes out of the desired
set, whether or not it finds them. -/
theorem keepDesired_set (endpoints : List Endpoint) :
    ∀ acc : List Endpoint × Bool × EndpointSet,
      (endpoints.foldl keepDesired acc).2.2.endpoints =
        acc.2.2.endpoints.filter fun d => hashEndpoint d ∉ endpoints.map hashEndpoint := by
  induction endpoints with
  | nil =>
    intro acc
    simp
  | cons endpoint endpoints ih =>
    intro acc
    have hstep : (keepDesired acc endpoint).2.2.endpoints =
        acc.2.2.endpoints.filter fun d => hashEndpoint d ≠ hashEndpoint endpoint := by
      unfold keepDesired
      cases hget : acc.2.2.Get endpoint with
      | none =>
        exact (List.filter_eq_self.mpr fun d hd => by
          simpa using EndpointSet.Get_eq_none hget d hd).symm
      | some got => rfl
    rw [List.foldl_cons, ih, hstep, List.filter_filter]
    congr 1
    funext d
    simp only [List.map_cons, List.mem_cons, not_or, Bool.and_comm, Bool.decide_and]

/-! ## Step 1 over current slices -/

/-- Step 1 over the endpoints of a slice, with distinct hashes, each with its desired version in
the set, equal to it beyond the hash: the slice keeps them all and finds none changed. -/
theorem foldl_keepDesired_of_current (endpoints : List Endpoint) :
    ∀ (kept : List Endpoint) (s : EndpointSet), (endpoints.map hashEndpoint).Nodup →
      (∀ e ∈ endpoints, ∃ d ∈ s.endpoints, hashEndpoint d = hashEndpoint e ∧
        EndpointsEqualBeyondHash d e = true) →
      ∃ kept' s', endpoints.foldl keepDesired (kept, false, s) = (kept ++ kept', false, s') ∧
        kept'.length = endpoints.length := by
  induction endpoints with
  | nil =>
    intro kept s _ _
    exact ⟨[], s, by simp, rfl⟩
  | cons endpoint endpoints ih =>
    intro kept s hnd hcur
    rw [List.map_cons, List.nodup_cons] at hnd
    obtain ⟨d, hd, hhash, hequal⟩ := hcur endpoint List.mem_cons_self
    have hstep : keepDesired (kept, false, s) endpoint = (kept ++ [d], false, s.Delete endpoint) := by
      simp [keepDesired, EndpointSet.Get_eq_some_of_mem hd hhash, hequal]
    have hcur' : ∀ e ∈ endpoints, ∃ d ∈ (s.Delete endpoint).endpoints,
        hashEndpoint d = hashEndpoint e ∧ EndpointsEqualBeyondHash d e = true := by
      intro e he
      obtain ⟨d', hd', hhash', hequal'⟩ := hcur e (List.mem_cons_of_mem _ he)
      refine ⟨d', List.mem_filter.mpr ⟨hd', decide_eq_true fun h => hnd.1 ?_⟩, hhash', hequal'⟩
      rw [← h, hhash']
      exact List.mem_map_of_mem he
    obtain ⟨kept', s', hrun, hlen⟩ := ih (kept ++ [d]) (s.Delete endpoint) hnd.2 hcur'
    refine ⟨d :: kept', s', ?_, by rw [List.length_cons, hlen, List.length_cons]⟩
    rw [List.foldl_cons, hstep, hrun, List.append_assoc, List.singleton_append]

/-- Step 1 for a current slice with distinct hashes marks it unchanged, and takes its hashes out of
the desired set. -/
theorem reconcileExistingSlice_of_current (service : Service) (st : PortMappingState)
    (slice : EndpointSlice) (hcur : SliceCurrent service st.desiredSet.endpoints slice)
    (hnd : (sliceHashes slice).Nodup) :
    ∃ s', reconcileExistingSlice service st slice =
        { st with slicesByName := st.slicesByName.insert slice.name slice, desiredSet := s',
                  sliceNamesUnchanged := st.sliceNamesUnchanged.insert slice.name } ∧
      s'.endpoints = st.desiredSet.endpoints.filter fun d => hashEndpoint d ∉ sliceHashes slice := by
  obtain ⟨kept, s', hrun, hlen⟩ :=
    foldl_keepDesired_of_current slice.endpoints [] st.desiredSet hnd hcur.2
  have hset := keepDesired_set slice.endpoints ([], false, st.desiredSet)
  rw [hrun] at hset
  refine ⟨s', ?_, hset⟩
  unfold reconcileExistingSlice
  simp only [hrun, List.nil_append, hlen, ne_eq, not_true_eq_false, decide_false, Bool.or_false,
    Bool.false_eq_true, ↓reduceIte, hcur.1]

/-- Step 1 over current slices that hold the endpoints still desired, each once, marks them all
unchanged and leaves nothing desired. -/
theorem foldl_reconcileExistingSlice_of_current (service : Service) (slices : List EndpointSlice) :
    ∀ st : PortMappingState,
      (st.desiredSet.endpoints.map hashEndpoint).Perm (slices.flatMap sliceHashes) →
      (∀ slice ∈ slices, SliceCurrent service st.desiredSet.endpoints slice) →
      (slices.foldl (reconcileExistingSlice service) st).desiredSet.endpoints = [] ∧
      (slices.foldl (reconcileExistingSlice service) st).sliceNamesToUpdate = st.sliceNamesToUpdate ∧
      (slices.foldl (reconcileExistingSlice service) st).sliceNamesToDelete = st.sliceNamesToDelete ∧
      (slices.foldl (reconcileExistingSlice service) st).numRemoved = st.numRemoved := by
  induction slices with
  | nil =>
    intro st hperm _
    exact ⟨List.map_eq_nil_iff.mp (List.Perm.eq_nil hperm), rfl, rfl, rfl⟩
  | cons slice slices ih =>
    intro st hperm hcur
    rw [List.flatMap_cons] at hperm
    have hnd := List.nodup_append.mp (hperm.nodup_iff.mp st.desiredSet.nodup)
    have hapart : ∀ h ∈ slices.flatMap sliceHashes, h ∉ sliceHashes slice :=
      fun h hh hs => hnd.2.2 h hs h hh rfl
    obtain ⟨s', hstep, hs'⟩ := reconcileExistingSlice_of_current service st slice
      (hcur slice List.mem_cons_self) hnd.1
    rw [List.foldl_cons, hstep]
    refine ih _ ?_ fun slice' hslice' => ⟨(hcur slice' (.tail _ hslice')).1, fun e he => ?_⟩
    · -- the hashes of this slice leave the set, those of the others stay
      have hfilter : (st.desiredSet.endpoints.filter fun d => hashEndpoint d ∉ sliceHashes slice).map
          hashEndpoint = (st.desiredSet.endpoints.map hashEndpoint).filter fun h =>
            h ∉ sliceHashes slice := by
        rw [List.filter_map]
        rfl
      show (s'.endpoints.map hashEndpoint).Perm _
      rw [hs', hfilter]
      refine (hperm.filter _).trans ?_
      rw [List.filter_append, List.filter_eq_nil_iff.mpr fun h hh => by simpa using hh,
        List.filter_eq_self.mpr fun h hh => by simpa using hapart h hh, List.nil_append]
    · obtain ⟨d, hd, hhash, hequal⟩ := (hcur slice' (.tail _ hslice')).2 e he
      refine ⟨d, ?_, hhash, hequal⟩
      rw [hs', List.mem_filter, hhash]
      exact ⟨hd, decide_eq_true (hapart _ (List.mem_flatMap.mpr
        ⟨slice', hslice', List.mem_map_of_mem he⟩))⟩

/-- **Current slices holding every desired endpoint once get an empty plan.** -/
theorem reconcileByPortMapping_of_current (service : Service) (endpointMeta : EndpointMeta)
    (maxEndpointsPerSlice : ℕ) (slices : List EndpointSlice) (desiredSet : EndpointSet)
    (hperm : (desiredSet.endpoints.map hashEndpoint).Perm (slices.flatMap sliceHashes))
    (hcur : ∀ slice ∈ slices, SliceCurrent service desiredSet.endpoints slice) :
    reconcileByPortMapping service maxEndpointsPerSlice slices desiredSet endpointMeta =
      some ([], [], [], 0, 0) := by
  obtain ⟨hempty, hT, hX, hrem⟩ := foldl_reconcileExistingSlice_of_current service slices
    (PortMappingState.init desiredSet) hperm hcur
  unfold reconcileByPortMapping
  generalize slices.foldl (reconcileExistingSlice service) (PortMappingState.init desiredSet) = st
    at hempty hT hX hrem ⊢
  have hlen : st.desiredSet.Len = 0 := by rw [EndpointSet.Len, hempty, List.length_nil]
  have h₂ : fillSlicesToUpdate maxEndpointsPerSlice st = st := by
    rw [fillSlicesToUpdate, if_neg (by omega)]
  have h₃ : fillRemaining service endpointMeta maxEndpointsPerSlice 0 st [] = some (st, []) := by
    rw [fillRemaining, if_neg (by omega)]
  simp only [h₂, hlen, h₃, hT, hX, hrem]
  rfl

/-! ## What `EndpointsEqualBeyondHash` does not compare -/

/-- **Fields `EndpointsEqualBeyondHash` does not compare are never written.** When the labels of
the existing slices are up to date, and the desired endpoints are the endpoints of the existing
slices, each rewritten by `f` in anything but its addresses, its hostname, its ready condition and
its target (its zone, its node name, its serving or terminating condition), the plan is empty:
nothing is created, updated or deleted, and nothing is added or removed. With `f` the identity,
this is a run over slices already up to date. -/
theorem reconcileByPortMapping_skips_unread_fields (service : Service)
    (endpointMeta : EndpointMeta) (maxEndpointsPerSlice : ℕ) (existingSlices : List EndpointSlice)
    (f : Endpoint → Endpoint)
    (hf : ∀ e, hashEndpoint (f e) = hashEndpoint e ∧
      (f e).conditions.ready = e.conditions.ready ∧ (f e).targetRef = e.targetRef)
    (desiredSet : EndpointSet)
    (hdesired : desiredSet.endpoints.Perm ((existingSlices.flatMap (·.endpoints)).map f))
    (hlabels : ∀ slice ∈ existingSlices, (setEndpointSliceLabels slice service).2 = false) :
    reconcileByPortMapping service maxEndpointsPerSlice existingSlices desiredSet endpointMeta =
      some ([], [], [], 0, 0) := by
  have hhash : (existingSlices.flatMap (·.endpoints)).map (hashEndpoint ∘ f) =
      existingSlices.flatMap sliceHashes := by
    rw [List.map_flatMap]
    exact List.flatMap_congr fun slice _ => List.map_congr_left fun e _ => (hf e).1
  refine reconcileByPortMapping_of_current service endpointMeta maxEndpointsPerSlice existingSlices
    desiredSet (by rw [← hhash, ← List.map_map]; exact hdesired.map _) fun slice hslice =>
      ⟨hlabels slice hslice, fun e he => ⟨f e, ?_, (hf e).1,
        EndpointsEqualBeyondHash_of_ready_targetRef (hf e).2.1 (hf e).2.2⟩⟩
  exact hdesired.mem_iff.mpr (List.mem_map_of_mem (List.mem_flatMap.mpr ⟨slice, hslice, he⟩))

/-- An endpoint of slice `web-1` moves from zone `zone-a` to zone `zone-b`: the plan is empty, and
the slice keeps the old zone. -/
theorem reconcileByPortMapping_skips_unread_fields_zone :
    ∃ (existingSlices : List EndpointSlice) (desiredSet : EndpointSet),
      existingSlices = [⟨"web-1", "web-", [], ∅, .ipv4, [],
        [⟨["10.1.0.1"], none, ⟨some true, none, none⟩, none, none, some "zone-a"⟩]⟩] ∧
      desiredSet = EndpointSet.empty.Insert
        ⟨["10.1.0.1"], none, ⟨some true, none, none⟩, none, none, some "zone-b"⟩ ∧
      desiredSet.endpoints ≠ existingSlices.flatMap (·.endpoints) ∧
      (∀ e : Endpoint, hashEndpoint { e with zone := some "zone-b" } = hashEndpoint e ∧
        ({ e with zone := some "zone-b" } : Endpoint).conditions.ready = e.conditions.ready ∧
        ({ e with zone := some "zone-b" } : Endpoint).targetRef = e.targetRef) ∧
      desiredSet.endpoints.Perm ((existingSlices.flatMap (·.endpoints)).map
        fun e => { e with zone := some "zone-b" }) ∧
      (∀ slice ∈ existingSlices,
        (setEndpointSliceLabels slice ⟨"web", "u", ∅, "10.0.0.1"⟩).2 = false) ∧
      reconcileByPortMapping ⟨"web", "u", ∅, "10.0.0.1"⟩ 2 existingSlices desiredSet ⟨[], .ipv4⟩ =
        some ([], [], [], 0, 0) := by
  have hf : ∀ e : Endpoint, hashEndpoint { e with zone := some "zone-b" } = hashEndpoint e ∧
      ({ e with zone := some "zone-b" } : Endpoint).conditions.ready = e.conditions.ready ∧
      ({ e with zone := some "zone-b" } : Endpoint).targetRef = e.targetRef :=
    fun e => ⟨rfl, rfl, rfl⟩
  exact ⟨_, _, rfl, rfl, by decide, hf, by decide, by decide,
    reconcileByPortMapping_skips_unread_fields _ _ _ _ _ hf _ (by decide) (by decide)⟩

/-! ## The fixpoint -/

/-- A slice with the labels and the endpoints of a current slice is current. -/
theorem SliceCurrent.of_labels_endpoints {service : Service} {desired : List Endpoint}
    {slice slice' : EndpointSlice} (h : SliceCurrent service desired slice)
    (hlabels : slice'.labels = slice.labels) (hendpoints : slice'.endpoints = slice.endpoints) :
    SliceCurrent service desired slice' := by
  have hset : setEndpointSliceLabels slice' service = setEndpointSliceLabels slice service := by
    unfold setEndpointSliceLabels
    rw [hlabels]
  exact ⟨hset ▸ h.1, hendpoints ▸ h.2⟩

/-- Slices with the same endpoints, in order, hold the same hashes. -/
theorem flatMap_sliceHashes_congr {slices slices' : List EndpointSlice}
    (h : slices'.map (fun slice => (slice.labels, slice.endpoints)) =
      slices.map (fun slice => (slice.labels, slice.endpoints))) :
    slices'.flatMap sliceHashes = slices.flatMap sliceHashes := by
  have hendpoints := congrArg (List.map Prod.snd) h
  simp only [List.map_map] at hendpoints
  have hflat : ∀ l : List EndpointSlice,
      l.flatMap sliceHashes = (l.map (Prod.snd ∘ fun slice => (slice.labels, slice.endpoints))).flatMap
        (List.map hashEndpoint) := fun l => by
    rw [List.flatMap_map]
    rfl
  rw [hflat, hflat, hendpoints]

variable (service : Service) (endpointMeta : EndpointMeta) {maxEndpointsPerSlice : ℕ}
  {existingSlices : List EndpointSlice} (desiredSet : EndpointSet)

/-- **One run reaches a fixpoint.** Once the plan of `reconcileByPortMapping` is applied (the slices
to create created, under whatever names the API server gives them, and the slices to update
updated), a second run over the slices the Service then has, in any order, with the same desired
endpoints, plans nothing: no slice to create, update or delete, and nothing added or removed. -/
theorem reconcileByPortMapping_fixpoint (hpos : 0 < maxEndpointsPerSlice)
    (hnd : (existingSlices.map (·.name)).Nodup)
    (hnames : ∀ slice ∈ existingSlices, slice.name ≠ "") :
    ∃ slicesToCreate slicesToUpdate slicesToDelete numAdded numRemoved,
      reconcileByPortMapping service maxEndpointsPerSlice existingSlices desiredSet endpointMeta =
        some (slicesToCreate, slicesToUpdate, slicesToDelete, numAdded, numRemoved) ∧
      ∀ created slices : List EndpointSlice,
        created.map (fun slice => (slice.labels, slice.endpoints)) =
          slicesToCreate.map (fun slice => (slice.labels, slice.endpoints)) →
        slices.Perm (created ++ slicesToUpdate ++
          unchangedSlices existingSlices slicesToUpdate slicesToDelete) →
        reconcileByPortMapping service maxEndpointsPerSlice slices desiredSet endpointMeta =
          some ([], [], [], 0, 0) := by
  obtain ⟨st, slicesToCreate, hrun, h, hlen, hC, -⟩ :=
    reconcileByPortMapping_run service endpointMeta desiredSet hpos hnd hnames
  refine ⟨_, _, _, _, _, hrun, fun created slices hcreated hslices => ?_⟩
  refine reconcileByPortMapping_of_current service endpointMeta maxEndpointsPerSlice slices
    desiredSet ?_ fun slice hslice => ?_
  · -- the slices after hold the desired hashes, each once
    have happlied := (h.applied_perm hnd).trans (h.placed_perm hlen)
    rw [List.flatMap_append, List.flatMap_append, ← flatMap_sliceHashes_congr hcreated,
      ← List.flatMap_append, ← List.flatMap_append] at happlied
    exact happlied.symm.trans (hslices.symm.flatMap_right sliceHashes)
  · -- each of them is current: created as planned, updated, or left live
    rcases List.mem_append.mp (hslices.mem_iff.mp hslice) with hslice | hslice
    · rcases List.mem_append.mp hslice with hslice | hslice
      · have hmem : (slice.labels, slice.endpoints) ∈
            created.map fun slice : EndpointSlice => (slice.labels, slice.endpoints) :=
          List.mem_map_of_mem hslice
        rw [hcreated] at hmem
        obtain ⟨c, hc, hpair⟩ := List.mem_map.mp hmem
        obtain ⟨hlabels, hendpoints⟩ := Prod.mk.inj hpair
        exact (hC.created c hc).of_labels_endpoints hlabels.symm hendpoints.symm
      · obtain ⟨n, hn, hs⟩ := List.mem_filterMap.mp hslice
        exact hC.live n (List.mem_append_right _ hn) slice hs
    · obtain ⟨n, hn, hs⟩ := List.mem_filterMap.mp ((h.unchangedSlices_perm hnd).mem_iff.mp hslice)
      exact hC.live n (List.mem_append_left _ hn) slice hs


/-- Slice `web-1` loses an endpoint and is refilled, and a slice is created: once the plan is
applied, with the created slice named `web-2`, a second run plans nothing. -/
theorem reconcileByPortMapping_fixpoint_web :
    ∃ (existingSlices : List EndpointSlice) (desiredSet : EndpointSet),
      existingSlices = [⟨"web-1", "web-", [], ∅, .ipv4, [],
        [⟨["10.1.0.1"], none, ⟨some true, none, none⟩, none, none, none⟩,
          ⟨["10.1.0.2"], none, ⟨some true, none, none⟩, none, none, none⟩]⟩] ∧
      desiredSet = ((EndpointSet.empty.Insert
        ⟨["10.1.0.1"], none, ⟨some true, none, none⟩, none, none, none⟩).Insert
        ⟨["10.1.0.3"], none, ⟨some true, none, none⟩, none, none, none⟩).Insert
        ⟨["10.1.0.4"], none, ⟨some true, none, none⟩, none, none, none⟩ ∧
      0 < 2 ∧ (existingSlices.map (·.name)).Nodup ∧ (∀ slice ∈ existingSlices, slice.name ≠ "") ∧
      ∃ slicesToCreate slicesToUpdate slicesToDelete numAdded numRemoved,
        reconcileByPortMapping ⟨"web", "u", ∅, "10.0.0.1"⟩ 2 existingSlices desiredSet ⟨[], .ipv4⟩ =
          some (slicesToCreate, slicesToUpdate, slicesToDelete, numAdded, numRemoved) ∧
        ∀ created slices : List EndpointSlice,
          created.map (fun slice => (slice.labels, slice.endpoints)) =
            slicesToCreate.map (fun slice => (slice.labels, slice.endpoints)) →
          slices.Perm (created ++ slicesToUpdate ++
            unchangedSlices existingSlices slicesToUpdate slicesToDelete) →
          reconcileByPortMapping ⟨"web", "u", ∅, "10.0.0.1"⟩ 2 slices desiredSet ⟨[], .ipv4⟩ =
            some ([], [], [], 0, 0) :=
  ⟨_, _, rfl, rfl, by decide, by decide, by decide,
    reconcileByPortMapping_fixpoint ⟨"web", "u", ∅, "10.0.0.1"⟩ ⟨[], .ipv4⟩ _
      (by decide) (by decide) (by decide)⟩

end Kubernetes.EndpointSliceReconciler
