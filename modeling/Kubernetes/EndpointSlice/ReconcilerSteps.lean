import Mathlib
import Kubernetes.Foundations.Bins
import Kubernetes.EndpointSlice.Reconciler

/-!
# The steps of `reconcileByPortMapping`

One lemma for each piece of the reconciler, saying what it does, so that the proofs about the
whole never unfold the pieces again.

* `EndpointSet.Get` finds the endpoint with the item's hash, and `Delete` then takes out that
  endpoint alone (`EndpointSet.Get_perm_Delete`).
* The loop over an existing slice's endpoints moves the desired versions of some of them out of
  the set (`keepDesired_perm`), at most one for each endpoint of the slice (`keepDesired_kept`).
* `reconcileExistingSlice` puts the slice under its name and marks it unchanged, to update or to
  delete (`reconcileExistingSlice_cases`).
* `fillSlice` moves the first desired endpoints into the slice (`fillSlice_eq`), never past the
  limit (`fillSlice_length_le`), and at least one when the slice has room (`fillSlice_length_lt`).
* `getSliceToFill` returns the fullest slice with room for all the endpoints left, and `nil` only
  when no slice has that room (`getSliceToFill_spec`, `getSliceToFill_eq_none`).
-/

namespace Kubernetes.EndpointSliceReconciler

/-- The hashes of a slice's endpoints. -/
def sliceHashes (slice : EndpointSlice) : List EndpointHash := slice.endpoints.map hashEndpoint

/-! ## The desired set -/

namespace EndpointSet

theorem Get_eq_some {s : EndpointSet} {item got : Endpoint} (h : s.Get item = some got) :
    got ∈ s.endpoints ∧ hashEndpoint got = hashEndpoint item := by
  unfold Get at h
  exact ⟨List.mem_of_find?_eq_some h, by simpa using List.find?_some h⟩

/-- The endpoint `Get` finds is the only one `Delete` takes out. -/
theorem Get_perm_Delete {s : EndpointSet} {item got : Endpoint} (h : s.Get item = some got) :
    (s.endpoints.map hashEndpoint).Perm
      (hashEndpoint got :: (s.Delete item).endpoints.map hashEndpoint) := by
  obtain ⟨hmem, hhash⟩ := Get_eq_some h
  have hperm := Bins.perm_cons_filter hashEndpoint s.nodup hmem
  rw [hhash] at hperm ⊢
  exact hperm

theorem Delete_sublist (s : EndpointSet) (item : Endpoint) :
    (s.Delete item).endpoints.Sublist s.endpoints :=
  List.filter_sublist

end EndpointSet

/-! ## Step 1 -/

/-- The loop over an existing slice's endpoints moves each endpoint it keeps out of the set. -/
theorem keepDesired_perm (endpoints : List Endpoint) (acc : List Endpoint × Bool × EndpointSet) :
    ((endpoints.foldl keepDesired acc).1.map hashEndpoint ++
        (endpoints.foldl keepDesired acc).2.2.endpoints.map hashEndpoint).Perm
      (acc.1.map hashEndpoint ++ acc.2.2.endpoints.map hashEndpoint) := by
  induction endpoints generalizing acc with
  | nil => exact List.Perm.refl _
  | cons endpoint endpoints ih =>
    refine (ih _).trans ?_
    unfold keepDesired
    cases hget : acc.2.2.Get endpoint with
    | none => exact List.Perm.refl _
    | some got =>
      simp only [List.map_append, List.map_singleton, List.append_assoc, List.singleton_append]
      exact ((EndpointSet.Get_perm_Delete hget).append_left _).symm

/-- The loop keeps endpoints of the set, with the hashes of some endpoints of the slice, in order;
the set only loses endpoints. -/
theorem keepDesired_kept (endpoints : List Endpoint) (acc : List Endpoint × Bool × EndpointSet) :
    ∃ kept, (endpoints.foldl keepDesired acc).1 = acc.1 ++ kept ∧
      (kept.map hashEndpoint).Sublist (endpoints.map hashEndpoint) ∧
      (∀ e ∈ kept, e ∈ acc.2.2.endpoints) ∧
      (endpoints.foldl keepDesired acc).2.2.endpoints.Sublist acc.2.2.endpoints := by
  induction endpoints generalizing acc with
  | nil => exact ⟨[], by simp, List.Sublist.slnil, by simp, List.Sublist.refl _⟩
  | cons endpoint endpoints ih =>
    obtain ⟨kept, hkept, hsub, hmem, hset⟩ := ih (keepDesired acc endpoint)
    rw [List.foldl_cons]
    unfold keepDesired at hkept hmem hset ⊢
    cases hget : acc.2.2.Get endpoint with
    | none =>
      rw [hget] at hkept hmem hset
      exact ⟨kept, hkept, hsub.cons _, hmem, hset⟩
    | some got =>
      rw [hget] at hkept hmem hset
      obtain ⟨hgot, hhash⟩ := EndpointSet.Get_eq_some hget
      refine ⟨got :: kept, by rw [hkept, List.append_assoc, List.singleton_append], ?_, ?_,
        hset.trans (EndpointSet.Delete_sublist _ _)⟩
      · rw [List.map_cons, List.map_cons, hhash]
        exact hsub.cons_cons _
      · intro e he
        rcases List.mem_cons.mp he with rfl | he
        · exact hgot
        · exact EndpointSet.Delete_sublist _ _ |>.subset (hmem e he)

/-- What `reconcileExistingSlice` does: the slice goes under its name, the desired set loses the
endpoints the slice keeps, the removed ones are counted, and the slice is marked unchanged (as it
is, keeping all its endpoints), to update (with the hashes it keeps) or to delete (keeping none). -/
theorem reconcileExistingSlice_cases (service : Service) (st : PortMappingState)
    (existingSlice : EndpointSlice) :
    ∃ slice kept, (reconcileExistingSlice service st existingSlice).slicesByName =
        st.slicesByName.insert existingSlice.name slice ∧
      slice.name = existingSlice.name ∧ slice.ports = existingSlice.ports ∧
      (kept.map hashEndpoint ++
          (reconcileExistingSlice service st existingSlice).desiredSet.endpoints.map hashEndpoint).Perm
        (st.desiredSet.endpoints.map hashEndpoint) ∧
      (reconcileExistingSlice service st existingSlice).desiredSet.endpoints.Sublist
        st.desiredSet.endpoints ∧
      (reconcileExistingSlice service st existingSlice).numRemoved =
        st.numRemoved + (existingSlice.endpoints.length - kept.length) ∧
      kept.length ≤ existingSlice.endpoints.length ∧
      ((reconcileExistingSlice service st existingSlice).sliceNamesUnchanged =
          st.sliceNamesUnchanged.insert existingSlice.name ∧
        (reconcileExistingSlice service st existingSlice).sliceNamesToUpdate = st.sliceNamesToUpdate ∧
        (reconcileExistingSlice service st existingSlice).sliceNamesToDelete = st.sliceNamesToDelete ∧
        slice = existingSlice ∧ sliceHashes slice = kept.map hashEndpoint ∨
      (reconcileExistingSlice service st existingSlice).sliceNamesUnchanged = st.sliceNamesUnchanged ∧
        (reconcileExistingSlice service st existingSlice).sliceNamesToUpdate =
          st.sliceNamesToUpdate.insert existingSlice.name ∧
        (reconcileExistingSlice service st existingSlice).sliceNamesToDelete = st.sliceNamesToDelete ∧
        sliceHashes slice = kept.map hashEndpoint ∧
        slice.endpoints.length ≤ existingSlice.endpoints.length ∨
      (reconcileExistingSlice service st existingSlice).sliceNamesUnchanged = st.sliceNamesUnchanged ∧
        (reconcileExistingSlice service st existingSlice).sliceNamesToUpdate = st.sliceNamesToUpdate ∧
        (reconcileExistingSlice service st existingSlice).sliceNamesToDelete =
          st.sliceNamesToDelete.insert existingSlice.name ∧
        slice = existingSlice ∧ kept = []) := by
  obtain ⟨kept, hkept, hsub, -, hset⟩ :=
    keepDesired_kept existingSlice.endpoints ([], false, st.desiredSet)
  have hperm := keepDesired_perm existingSlice.endpoints ([], false, st.desiredSet)
  rw [hkept, List.nil_append] at hperm
  rw [List.nil_append] at hkept
  have hlen : kept.length ≤ existingSlice.endpoints.length := by
    simpa using hsub.length_le
  have hsame : kept.length = existingSlice.endpoints.length →
      sliceHashes existingSlice = kept.map hashEndpoint := fun h =>
    (hsub.eq_of_length (by simpa using h)).symm
  unfold reconcileExistingSlice
  simp only [hkept]
  split_ifs with hupd hzero hgt hgt' hlabels
  · -- the slice keeps none of its endpoints: it is deleted
    exact ⟨existingSlice, kept, rfl, rfl, rfl, hperm, hset, rfl, hlen,
      .inr (.inr ⟨rfl, rfl, rfl, rfl, List.eq_nil_of_length_eq_zero hzero⟩)⟩
  · refine ⟨existingSlice, kept, rfl, rfl, rfl, hperm, hset, by dsimp only; omega, hlen,
      .inr (.inr ⟨rfl, rfl, rfl, rfl, List.eq_nil_of_length_eq_zero hzero⟩)⟩
  · -- it keeps some, and not all of them or not as they were: it is updated with them
    exact ⟨{ existingSlice with endpoints := kept, labels := (setEndpointSliceLabels existingSlice service).1 },
      kept, AList.insert_insert _, rfl, rfl, hperm, hset, rfl, hlen, .inr (.inl ⟨rfl, rfl, rfl, rfl, hlen⟩)⟩
  · exact ⟨{ existingSlice with endpoints := kept, labels := (setEndpointSliceLabels existingSlice service).1 },
      kept, AList.insert_insert _, rfl, rfl, hperm, hset, by dsimp only; omega, hlen,
      .inr (.inl ⟨rfl, rfl, rfl, rfl, hlen⟩)⟩
  all_goals
    have hall : kept.length = existingSlice.endpoints.length := by
      simp only [Bool.or_eq_true, decide_eq_true_eq, not_or, not_not] at hupd
      exact hupd.2.symm
  · -- it keeps all of them as they were, and its labels change: it is updated
    exact ⟨{ existingSlice with labels := (setEndpointSliceLabels existingSlice service).1 }, kept,
      AList.insert_insert _, rfl, rfl, hperm, hset, by dsimp only; omega, hlen,
      .inr (.inl ⟨rfl, rfl, rfl, hsame hall, le_refl _⟩)⟩
  · exact ⟨existingSlice, kept, rfl, rfl, rfl, hperm, hset, by dsimp only; omega, hlen,
      .inl ⟨rfl, rfl, rfl, rfl, hsame hall⟩⟩

/-! ## Filling a slice -/

/-- `fillSlice` moves the first desired endpoints into the slice. -/
theorem fillSlice_eq (maxEndpointsPerSlice : ℕ) (slice : EndpointSlice) (desired : List Endpoint) :
    ∃ taken, (fillSlice maxEndpointsPerSlice slice desired).1 =
        { slice with endpoints := slice.endpoints ++ taken } ∧
      taken ++ (fillSlice maxEndpointsPerSlice slice desired).2 = desired := by
  induction desired generalizing slice with
  | nil => exact ⟨[], by simp [fillSlice], rfl⟩
  | cons endpoint desired ih =>
    rw [fillSlice]
    split_ifs
    · obtain ⟨taken, h₁, h₂⟩ := ih { slice with endpoints := slice.endpoints ++ [endpoint] }
      exact ⟨endpoint :: taken, by rw [h₁]; simp, by rw [List.cons_append, h₂]⟩
    · exact ⟨[], by simp, rfl⟩

/-- `fillSlice` never fills a slice past the limit. -/
theorem fillSlice_length_le {maxEndpointsPerSlice : ℕ} {slice : EndpointSlice}
    (h : slice.endpoints.length ≤ maxEndpointsPerSlice) (desired : List Endpoint) :
    (fillSlice maxEndpointsPerSlice slice desired).1.endpoints.length ≤ maxEndpointsPerSlice := by
  induction desired generalizing slice with
  | nil => exact h
  | cons endpoint desired ih =>
    rw [fillSlice]
    split_ifs with hroom
    · exact ih (by simp only [List.length_append, List.length_singleton]; omega)
    · exact h

/-- A slice with room takes at least one desired endpoint. -/
theorem fillSlice_length_lt {maxEndpointsPerSlice : ℕ} {slice : EndpointSlice}
    (h : slice.endpoints.length < maxEndpointsPerSlice) {desired : List Endpoint}
    (hne : desired ≠ []) :
    (fillSlice maxEndpointsPerSlice slice desired).2.length < desired.length := by
  obtain _ | ⟨endpoint, desired⟩ := desired
  · exact absurd rfl hne
  · rw [fillSlice, if_pos h]
    have := (fillSlice_suffix maxEndpointsPerSlice
      { slice with endpoints := slice.endpoints ++ [endpoint] } desired).length_le
    simp only [List.length_cons]
    omega

/-- What the filling of a slice leaves of a state: the filled slice and the desired endpoints it did
not take. -/
theorem fill_eq (s : EndpointSet) (maxEndpointsPerSlice : ℕ) (slice : EndpointSlice) :
    ∃ taken, (s.fill maxEndpointsPerSlice slice).1 =
        { slice with endpoints := slice.endpoints ++ taken } ∧
      taken ++ (s.fill maxEndpointsPerSlice slice).2.endpoints = s.endpoints :=
  fillSlice_eq maxEndpointsPerSlice slice s.endpoints

theorem fill_sublist (s : EndpointSet) (maxEndpointsPerSlice : ℕ) (slice : EndpointSlice) :
    (s.fill maxEndpointsPerSlice slice).2.endpoints.Sublist s.endpoints :=
  (fillSlice_suffix maxEndpointsPerSlice slice s.endpoints).sublist

theorem fillSliceToUpdate_eq (maxEndpointsPerSlice : ℕ) (st : PortMappingState)
    (slice : EndpointSlice) :
    fillSliceToUpdate maxEndpointsPerSlice st slice =
      { st with slicesByName := st.slicesByName.insert
                  (st.desiredSet.fill maxEndpointsPerSlice slice).1.name
                  (st.desiredSet.fill maxEndpointsPerSlice slice).1
                desiredSet := (st.desiredSet.fill maxEndpointsPerSlice slice).2 } := rfl

theorem foldl_fillSliceToUpdate_numRemoved (maxEndpointsPerSlice : ℕ)
    (slices : List EndpointSlice) (st : PortMappingState) :
    (slices.foldl (fillSliceToUpdate maxEndpointsPerSlice) st).numRemoved = st.numRemoved := by
  induction slices generalizing st with
  | nil => rfl
  | cons slice slices ih => exact ih _

/-- Step 2 counts no removal. -/
theorem fillSlicesToUpdate_numRemoved (maxEndpointsPerSlice : ℕ) (st : PortMappingState) :
    (fillSlicesToUpdate maxEndpointsPerSlice st).numRemoved = st.numRemoved := by
  unfold fillSlicesToUpdate
  split_ifs
  · exact foldl_fillSliceToUpdate_numRemoved _ _ _
  · rfl

/-! ## `getSliceToFill` -/

/-- How far from full `numEndpoints` more endpoints leave a slice. -/
def fillDiff (numEndpoints maxEndpoints : ℤ) (slice : EndpointSlice) : ℤ :=
  maxEndpoints - (numEndpoints + slice.endpoints.length)

/-- The loop of `getSliceToFill` finds a slice of least distance from full among those that fit
and beat the closest so far, if there is one, and otherwise keeps the closest so far. -/
theorem getSliceToFillLoop_spec (numEndpoints maxEndpoints : ℤ) (slices : List EndpointSlice)
    (closestDiff : ℤ) (closestSlice : Option EndpointSlice) :
    (∃ t ∈ slices, 0 ≤ fillDiff numEndpoints maxEndpoints t ∧
        fillDiff numEndpoints maxEndpoints t < closestDiff ∧
        getSliceToFillLoop numEndpoints maxEndpoints slices closestDiff closestSlice = some t ∧
        ∀ u ∈ slices, 0 ≤ fillDiff numEndpoints maxEndpoints u →
          fillDiff numEndpoints maxEndpoints t ≤ fillDiff numEndpoints maxEndpoints u) ∨
      ((∀ u ∈ slices, 0 ≤ fillDiff numEndpoints maxEndpoints u →
          closestDiff ≤ fillDiff numEndpoints maxEndpoints u) ∧
        getSliceToFillLoop numEndpoints maxEndpoints slices closestDiff closestSlice =
          closestSlice) := by
  induction slices generalizing closestDiff closestSlice with
  | nil => exact .inr ⟨by simp, rfl⟩
  | cons s slices ih =>
    have hdiff : maxEndpoints - (numEndpoints + s.endpoints.length) =
      fillDiff numEndpoints maxEndpoints s := rfl
    rw [getSliceToFillLoop, hdiff]
    by_cases hfit : fillDiff numEndpoints maxEndpoints s ≥ 0 ∧
        fillDiff numEndpoints maxEndpoints s < closestDiff
    · rw [if_pos hfit]
      by_cases hzero : fillDiff numEndpoints maxEndpoints s = 0
      · -- a slice the endpoints fill exactly is the closest there can be
        rw [if_pos hzero]
        refine .inl ⟨s, List.mem_cons_self, hfit.1, hfit.2, rfl, fun u _ hu => ?_⟩
        rw [hzero]
        exact hu
      · rw [if_neg hzero]
        rcases ih (fillDiff numEndpoints maxEndpoints s) (some s) with
          ⟨t, ht, ht0, htlt, hres, hmin⟩ | ⟨hmin, hres⟩
        · refine .inl ⟨t, List.mem_cons_of_mem _ ht, ht0, by omega, hres, fun u hu hu0 => ?_⟩
          rcases List.mem_cons.mp hu with rfl | hu
          · exact le_of_lt htlt
          · exact hmin u hu hu0
        · refine .inl ⟨s, List.mem_cons_self, hfit.1, hfit.2, hres, fun u hu hu0 => ?_⟩
          rcases List.mem_cons.mp hu with rfl | hu
          · exact le_refl _
          · exact hmin u hu hu0
    · rw [if_neg hfit]
      have hs : 0 ≤ fillDiff numEndpoints maxEndpoints s →
          closestDiff ≤ fillDiff numEndpoints maxEndpoints s := fun h0 => by
        by_contra hlt
        exact hfit ⟨h0, lt_of_not_ge hlt⟩
      rcases ih closestDiff closestSlice with ⟨t, ht, ht0, htlt, hres, hmin⟩ | ⟨hmin, hres⟩
      · refine .inl ⟨t, List.mem_cons_of_mem _ ht, ht0, htlt, hres, fun u hu hu0 => ?_⟩
        rcases List.mem_cons.mp hu with rfl | hu
        · exact le_trans (le_of_lt htlt) (hs hu0)
        · exact hmin u hu hu0
      · refine .inr ⟨fun u hu hu0 => ?_, hres⟩
        rcases List.mem_cons.mp hu with rfl | hu
        · exact hs hu0
        · exact hmin u hu hu0

/-- **`getSliceToFill` returns the fullest slice with room for all the endpoints**: the slice it
returns is one of them, has room for the `numEndpoints` endpoints, and no slice with that room
has more endpoints. -/
theorem getSliceToFill_spec {slices : List EndpointSlice} {numEndpoints maxEndpoints : ℕ}
    {slice : EndpointSlice} (h : getSliceToFill slices numEndpoints maxEndpoints = some slice) :
    slice ∈ slices ∧ numEndpoints + slice.endpoints.length ≤ maxEndpoints ∧
      ∀ u ∈ slices, numEndpoints + u.endpoints.length ≤ maxEndpoints →
        u.endpoints.length ≤ slice.endpoints.length := by
  unfold getSliceToFill at h
  rcases getSliceToFillLoop_spec numEndpoints maxEndpoints slices maxEndpoints none with
    ⟨t, ht, ht0, -, hres, hmin⟩ | ⟨-, hres⟩
  · rw [hres, Option.some.injEq] at h
    subst h
    refine ⟨ht, by unfold fillDiff at ht0; omega, fun u hu hroom => ?_⟩
    have := hmin u hu (by unfold fillDiff; omega)
    unfold fillDiff at this
    omega
  · rw [hres] at h
    cases h

/-- `getSliceToFill` returns `nil` for some endpoints only when no slice has room for them. -/
theorem getSliceToFill_eq_none {slices : List EndpointSlice} {numEndpoints maxEndpoints : ℕ}
    (hpos : 0 < numEndpoints) (h : getSliceToFill slices numEndpoints maxEndpoints = none) :
    ∀ u ∈ slices, maxEndpoints < numEndpoints + u.endpoints.length := by
  intro u hu
  unfold getSliceToFill at h
  rcases getSliceToFillLoop_spec numEndpoints maxEndpoints slices maxEndpoints none with
    ⟨t, -, -, -, hres, -⟩ | ⟨hmin, -⟩
  · rw [hres] at h
    cases h
  · by_contra hroom
    have := hmin u hu (by unfold fillDiff; omega)
    unfold fillDiff at this
    omega

/-! ## A turn of step 3 -/

section Step3

variable {maxEndpointsPerSlice : ℕ} (service : Service) (endpointMeta : EndpointMeta)
  {st : PortMappingState} (slicesToCreate : List EndpointSlice)

/-- The slice a turn of step 3 finds is an unchanged one, with room for all the endpoints left. -/
theorem findSliceToFill_spec {slice : EndpointSlice}
    (hfound : findSliceToFill maxEndpointsPerSlice st = some slice) :
    slice ∈ st.sliceNamesUnchanged.filterMap st.slicesByName.lookup ∧
      st.desiredSet.Len + slice.endpoints.length ≤ maxEndpointsPerSlice := by
  unfold findSliceToFill at hfound
  split_ifs at hfound
  · obtain ⟨hmem, hroom, -⟩ := getSliceToFill_spec hfound
    exact ⟨hmem, hroom⟩

/-- A turn of step 3 that finds an unchanged slice with a name fills it and marks it to update. -/
theorem fillRemainingOnce_of_found {slice : EndpointSlice}
    (hfound : findSliceToFill maxEndpointsPerSlice st = some slice) (hname : slice.name ≠ "") :
    fillRemainingOnce service endpointMeta maxEndpointsPerSlice st slicesToCreate =
      ({ st with slicesByName := st.slicesByName.insert slice.name
                   (st.desiredSet.fill maxEndpointsPerSlice slice).1
                 desiredSet := (st.desiredSet.fill maxEndpointsPerSlice slice).2
                 sliceNamesToUpdate := st.sliceNamesToUpdate.insert slice.name
                 sliceNamesUnchanged := st.sliceNamesUnchanged.erase slice.name },
        slicesToCreate) := by
  obtain ⟨taken, hfilled, -⟩ := fill_eq st.desiredSet maxEndpointsPerSlice slice
  have hfname : (st.desiredSet.fill maxEndpointsPerSlice slice).1.name = slice.name := by
    rw [hfilled]
  unfold fillRemainingOnce
  simp only [hfound, Option.getD_some, hfname, ne_eq, hname, not_false_eq_true, if_true]

/-- A turn of step 3 that finds no slice fills a new one, to create. -/
theorem fillRemainingOnce_of_none (hfound : findSliceToFill maxEndpointsPerSlice st = none) :
    fillRemainingOnce service endpointMeta maxEndpointsPerSlice st slicesToCreate =
      ({ st with desiredSet :=
          (st.desiredSet.fill maxEndpointsPerSlice (newEndpointSlice service endpointMeta)).2 },
        slicesToCreate ++
          [(st.desiredSet.fill maxEndpointsPerSlice (newEndpointSlice service endpointMeta)).1]) := by
  obtain ⟨taken, hfilled, -⟩ :=
    fill_eq st.desiredSet maxEndpointsPerSlice (newEndpointSlice service endpointMeta)
  have hfname :
      (st.desiredSet.fill maxEndpointsPerSlice (newEndpointSlice service endpointMeta)).1.name =
        "" := by
    rw [hfilled]
    rfl
  unfold fillRemainingOnce
  simp only [hfound, Option.getD_none, hfname, ne_eq, not_true_eq_false, if_false]

end Step3


/-! ## Induction rules for the three loops

An invariant each step keeps holds over the loop; the side conditions are those the steps need:
step 1 sees each name once, step 2 fills slices marked to update under their own names. -/

/-- Step 1's loop: an invariant of the slices processed and the state, kept by each slice of a
fresh name. -/
theorem foldl_reconcileExistingSlice_rule (service : Service)
    (P : List EndpointSlice → PortMappingState → Prop)
    (hstep : ∀ processed st existingSlice, P processed st →
      existingSlice.name ∉ processed.map (·.name) →
      P (processed ++ [existingSlice]) (reconcileExistingSlice service st existingSlice))
    (slices : List EndpointSlice) :
    ∀ {processed : List EndpointSlice} {st : PortMappingState}, P processed st →
      ((processed ++ slices).map (·.name)).Nodup →
      P (processed ++ slices) (slices.foldl (reconcileExistingSlice service) st) := by
  induction slices with
  | nil =>
    intro processed st h _
    simpa using h
  | cons slice slices ih =>
    intro processed st h hnd
    have hfresh : slice.name ∉ processed.map (·.name) := by
      rw [List.map_append, List.map_cons, List.nodup_append] at hnd
      exact fun hin => hnd.2.2 _ hin _ List.mem_cons_self rfl
    rw [List.foldl_cons, ← List.singleton_append, ← List.append_assoc]
    exact ih (hstep processed st slice h hfresh) (by simpa using hnd)

/-- The slices stored under names carry those names, in order. -/
theorem map_name_filterMap_lookup {m : AList fun _ : String => EndpointSlice} {names : List String}
    (h : ∀ n ∈ names, ∃ slice, m.lookup n = some slice ∧ slice.name = n) :
    (names.filterMap m.lookup).map (·.name) = names := by
  induction names with
  | nil => rfl
  | cons n names ih =>
    obtain ⟨slice, hs, hname⟩ := h n List.mem_cons_self
    rw [List.filterMap_cons, hs, List.map_cons, hname,
      ih fun n' hn' => h n' (List.mem_cons_of_mem _ hn')]

section Step2

variable (maxEndpointsPerSlice : ℕ) (P : PortMappingState → Prop)
  (hstep : ∀ st slice, P st → slice.name ∈ st.sliceNamesToUpdate →
    st.slicesByName.lookup slice.name = some slice → P (fillSliceToUpdate maxEndpointsPerSlice st slice))
include hstep

/-- Step 2's loop over slices marked to update, each stored under its own name. -/
theorem foldl_fillSliceToUpdate_rule (slices : List EndpointSlice) :
    ∀ {st : PortMappingState}, P st → (slices.map (·.name)).Nodup →
      (∀ slice ∈ slices, slice.name ∈ st.sliceNamesToUpdate ∧
        st.slicesByName.lookup slice.name = some slice) →
      P (slices.foldl (fillSliceToUpdate maxEndpointsPerSlice) st) := by
  induction slices with
  | nil =>
    intro st h _ _
    exact h
  | cons slice slices ih =>
    intro st h hnd hslices
    rw [List.map_cons, List.nodup_cons] at hnd
    obtain ⟨hT, hs⟩ := hslices slice List.mem_cons_self
    refine ih (hstep st slice h hT hs) hnd.2 fun t ht => ⟨(hslices t (.tail _ ht)).1, ?_⟩
    have hne : t.name ≠ (st.desiredSet.fill maxEndpointsPerSlice slice).1.name := by
      obtain ⟨taken, hfilled, -⟩ := fill_eq st.desiredSet maxEndpointsPerSlice slice
      rw [hfilled]
      exact fun he => hnd.1 (he ▸ List.mem_map_of_mem ht)
    rw [fillSliceToUpdate_eq, AList.lookup_insert_ne hne]
    exact (hslices t (.tail _ ht)).2

/-- Step 2, when the names marked to update are distinct and each stores a slice of its name. -/
theorem fillSlicesToUpdate_rule {st : PortMappingState}
    (hnames : ∀ n ∈ st.sliceNamesToUpdate, ∃ slice, st.slicesByName.lookup n = some slice ∧
      slice.name = n)
    (hnd : st.sliceNamesToUpdate.Nodup) (h : P st) :
    P (fillSlicesToUpdate maxEndpointsPerSlice st) := by
  unfold fillSlicesToUpdate
  split_ifs
  · have hperm := List.perm_insertionSort
      (fun a b : EndpointSlice => decide (b.endpoints.length ≤ a.endpoints.length))
      (st.sliceNamesToUpdate.filterMap st.slicesByName.lookup)
    refine foldl_fillSliceToUpdate_rule maxEndpointsPerSlice P hstep _ h ?_ fun slice hslice => ?_
    · rw [(hperm.map _).nodup_iff, map_name_filterMap_lookup hnames]
      exact hnd
    · obtain ⟨n, hn, hs⟩ := List.mem_filterMap.mp (hperm.mem_iff.mp hslice)
      obtain ⟨slice', hs', hname⟩ := hnames n hn
      rw [hs, Option.some.injEq] at hs'
      subst hs'
      rw [hname]
      exact ⟨hn, hs⟩
  · exact h

end Step2

/-- Step 3's loop: an invariant that each turn keeps while endpoints are desired holds when the
loop returns. -/
theorem fillRemaining_rule (service : Service) (endpointMeta : EndpointMeta)
    (maxEndpointsPerSlice : ℕ) (P : PortMappingState → List EndpointSlice → Prop)
    (hstep : ∀ st slicesToCreate, P st slicesToCreate → 0 < st.desiredSet.Len →
      P (fillRemainingOnce service endpointMeta maxEndpointsPerSlice st slicesToCreate).1
        (fillRemainingOnce service endpointMeta maxEndpointsPerSlice st slicesToCreate).2)
    (fuel : ℕ) :
    ∀ {st st' : PortMappingState} {slicesToCreate slicesToCreate' : List EndpointSlice},
      P st slicesToCreate →
      fillRemaining service endpointMeta maxEndpointsPerSlice fuel st slicesToCreate =
        some (st', slicesToCreate') →
      P st' slicesToCreate' := by
  induction fuel with
  | zero =>
    intro st st' slicesToCreate slicesToCreate' h hrun
    rw [fillRemaining] at hrun
    split_ifs at hrun
    cases hrun
    exact h
  | succ fuel ih =>
    intro st st' slicesToCreate slicesToCreate' h hrun
    rw [fillRemaining] at hrun
    split_ifs at hrun with hne
    · exact ih (hstep st slicesToCreate h hne) hrun
    · cases hrun
      exact h

end Kubernetes.EndpointSliceReconciler
