import Mathlib
import Kubernetes.EndpointSlice.ReconcilerPlacement

/-!
# Slices left current

What makes a second run of `reconcileByPortMapping` find nothing to do is that every slice the first
run leaves live or creates is current (`SliceCurrent`): its labels are those `setEndpointSliceLabels`
would set, and each of its endpoints has a desired version that `EndpointsEqualBeyondHash` finds
equal to it.

* The labels `setEndpointSliceLabels` sets are current (`setEndpointSliceLabels_current`): the
  reserved labels are the ones it sets itself, and the others are the Service's, which it compares.
* Step 1 leaves current the slices it marks unchanged or to update
  (`reconcileExistingSlice_current`); a fill adds desired endpoints, which are current as they are.

`Current` says this of the live slices and of the slices to create, beside `Placement`; each step
keeps it (`Current.of_reconcileExistingSlice`, `Current.of_fillSlicesToUpdate`,
`Current.of_fillRemaining`).
-/

namespace Kubernetes.EndpointSliceReconciler

/-! ## Labels -/

theorem foldl_withoutReserved_lookup (k : String) :
    ∀ (entries : List (Σ _ : String, String)) (acc : Labels), entries.NodupKeys →
      (entries.foldl (fun m e => if IsReservedLabelKey e.1 then m else m.insert e.1 e.2)
          acc).lookup k =
        if IsReservedLabelKey k then acc.lookup k else (entries.dlookup k).or (acc.lookup k)
  | [], acc, _ => by
    split_ifs <;> rfl
  | ⟨key, value⟩ :: entries, acc, hnd => by
    rw [List.nodupKeys_cons] at hnd
    rw [List.foldl_cons, foldl_withoutReserved_lookup k entries _ hnd.2]
    by_cases hk : k = key
    · -- the key is inserted once, and found in no later entry
      subst hk
      have hlater : entries.dlookup k = none := List.dlookup_eq_none.mpr hnd.1
      cases IsReservedLabelKey k <;> simp [hlater]
    · cases IsReservedLabelKey key <;>
        simp [List.dlookup_cons_ne entries ⟨key, value⟩ hk, AList.lookup_insert_ne hk]

/-- The copy of a map without its reserved labels. -/
theorem withoutReserved_lookup (labels : Labels) (k : String) :
    (withoutReserved labels).lookup k =
      if IsReservedLabelKey k then none else labels.lookup k := by
  rw [withoutReserved, foldl_withoutReserved_lookup k _ _ labels.nodupKeys]
  split_ifs <;> simp [AList.lookup]

/-- Maps with the same lookups are equal for `labelsEqual`. -/
theorem labelsEqual_of_lookup {m₁ m₂ : Labels} (h : ∀ k, m₁.lookup k = m₂.lookup k) :
    labelsEqual m₁ m₂ = true := by
  have hkeys : m₁.keys.Perm m₂.keys :=
    (List.perm_ext_iff_of_nodup m₁.keys_nodup m₂.keys_nodup).mpr fun k => by
      rw [← AList.mem_keys, ← AList.mem_keys, ← AList.lookup_isSome, ← AList.lookup_isSome, h]
  simp [labelsEqual, hkeys.length_eq, h]

theorem IsReservedLabelKey_eq_false {k : String} (hk : IsReservedLabelKey k = false) :
    k ≠ LabelServiceName ∧ k ≠ LabelManagedBy ∧ k ≠ IsHeadlessService := by
  simp only [IsReservedLabelKey, Bool.or_eq_false_iff, decide_eq_false_iff_not] at hk
  exact ⟨hk.1.1, hk.1.2, hk.2⟩

/-- **The labels `setEndpointSliceLabels` sets are current**: a slice with them, with the same
Service, is reported unchanged. -/
theorem setEndpointSliceLabels_current (service : Service) (slice : EndpointSlice)
    {slice' : EndpointSlice} (h : slice'.labels = (setEndpointSliceLabels slice service).1) :
    (setEndpointSliceLabels slice' service).2 = false := by
  have hlookup : ∀ k, (withoutReserved slice'.labels).lookup k =
      (withoutReserved service.labels).lookup k := fun k => by
    rw [withoutReserved_lookup, withoutReserved_lookup]
    cases hk : IsReservedLabelKey k with
    | true => rfl
    | false =>
      obtain ⟨hSN, hMB, hH⟩ := IsReservedLabelKey_eq_false hk
      rw [if_neg Bool.false_ne_true, if_neg Bool.false_ne_true, h, setEndpointSliceLabels]
      simp only [AList.lookup_insert_ne hMB, AList.lookup_insert_ne hSN]
      split
      · rw [AList.lookup_insert_ne hH, withoutReserved_lookup, hk, if_neg Bool.false_ne_true]
      · rw [AList.lookup_erase_ne hH, withoutReserved_lookup, hk, if_neg Bool.false_ne_true]
  simp [setEndpointSliceLabels, labelsEqual_of_lookup hlookup]

/-! ## `EndpointsEqualBeyondHash` -/

@[simp] theorem ptrChanged_self {α : Type} [DecidableEq α] (ptr : Option α) :
    ptrChanged ptr ptr = false := by
  cases ptr <;> simp [ptrChanged]

/-- `EndpointsEqualBeyondHash` reads only the ready condition and the target of its second
endpoint: it compares the node name and the zone of the first endpoint with themselves. -/
theorem EndpointsEqualBeyondHash_of_ready_targetRef {ep1 ep2 : Endpoint}
    (hready : ep1.conditions.ready = ep2.conditions.ready) (htarget : ep1.targetRef = ep2.targetRef) :
    EndpointsEqualBeyondHash ep1 ep2 = true := by
  simp [EndpointsEqualBeyondHash, stringPtrChanged, boolPtrChanged, objectRefPtrChanged, hready,
    htarget]

theorem EndpointsEqualBeyondHash_self (endpoint : Endpoint) :
    EndpointsEqualBeyondHash endpoint endpoint = true :=
  EndpointsEqualBeyondHash_of_ready_targetRef rfl rfl

/-! ## Current slices -/

/-- A slice is current, for a Service and the endpoints `desired`, when its labels are those
`setEndpointSliceLabels` sets and each of its endpoints has a version in `desired` with its hash
that `EndpointsEqualBeyondHash` finds equal to it. -/
def SliceCurrent (service : Service) (desired : List Endpoint) (slice : EndpointSlice) : Prop :=
  (setEndpointSliceLabels slice service).2 = false ∧
    ∀ e ∈ slice.endpoints, ∃ d ∈ desired, hashEndpoint d = hashEndpoint e ∧
      EndpointsEqualBeyondHash d e = true

namespace SliceCurrent

variable {service : Service} {desired : List Endpoint} {slice : EndpointSlice}

theorem mono (h : SliceCurrent service desired slice) {desired' : List Endpoint}
    (hsub : desired ⊆ desired') : SliceCurrent service desired' slice :=
  ⟨h.1, fun e he => (h.2 e he).imp fun _ hd => ⟨hsub hd.1, hd.2⟩⟩

/-- Desired endpoints added to a current slice leave it current. -/
theorem fill (h : SliceCurrent service desired slice) {taken : List Endpoint}
    (htaken : ∀ e ∈ taken, e ∈ desired) :
    SliceCurrent service desired { slice with endpoints := slice.endpoints ++ taken } := by
  refine ⟨h.1, fun e he => ?_⟩
  rcases List.mem_append.mp he with he | he
  · exact h.2 e he
  · exact ⟨e, htaken e he, rfl, EndpointsEqualBeyondHash_self e⟩

end SliceCurrent

/-- A new slice is current: it has no endpoint, and the labels `setEndpointSliceLabels` sets. -/
theorem newEndpointSlice_current (service : Service) (endpointMeta : EndpointMeta)
    {desired : List Endpoint} :
    SliceCurrent service desired (newEndpointSlice service endpointMeta) :=
  ⟨setEndpointSliceLabels_current service
    { newEndpointSlice service endpointMeta with labels := ∅ } rfl, fun _ he => nomatch he⟩

/-! ## Step 1 -/

/-- Step 1 finds a desired version equal beyond the hash for every endpoint of a slice that keeps
as many endpoints as it has and finds none of them changed. The flag of a change, once set, stays. -/
theorem keepDesired_flag (endpoints : List Endpoint) :
    ∀ acc : List Endpoint × Bool × EndpointSet,
      (endpoints.foldl keepDesired acc).2.1 = false → acc.2.1 = false := by
  induction endpoints with
  | nil => exact fun _ h => h
  | cons endpoint endpoints ih =>
    intro acc h
    have h' := ih _ h
    unfold keepDesired at h'
    cases hget : acc.2.2.Get endpoint with
    | none => simpa [hget] using h'
    | some got =>
      simp only [hget, Bool.or_eq_false_iff] at h'
      exact h'.1

theorem keepDesired_current (endpoints : List Endpoint) :
    ∀ acc : List Endpoint × Bool × EndpointSet,
      (endpoints.foldl keepDesired acc).2.1 = false →
      (endpoints.foldl keepDesired acc).1.length = acc.1.length + endpoints.length →
      ∀ e ∈ endpoints, ∃ d ∈ acc.2.2.endpoints, hashEndpoint d = hashEndpoint e ∧
        EndpointsEqualBeyondHash d e = true := by
  induction endpoints with
  | nil => exact fun _ _ _ e he => nomatch he
  | cons endpoint endpoints ih =>
    intro acc hflag hlen e he
    rw [List.foldl_cons] at hflag hlen
    cases hget : acc.2.2.Get endpoint with
    | none =>
      have hstep : keepDesired acc endpoint = acc := by simp [keepDesired, hget]
      obtain ⟨kept, hkept, hsub, -, -⟩ := keepDesired_kept endpoints acc
      rw [hstep, hkept, List.length_append, List.length_cons] at hlen
      have := (hsub.length_le).trans_eq (List.length_map _)
      rw [List.length_map] at this
      omega
    | some got =>
      have hstep : keepDesired acc endpoint =
          (acc.1 ++ [got], acc.2.1 || !EndpointsEqualBeyondHash got endpoint,
            acc.2.2.Delete endpoint) := by
        simp [keepDesired, hget]
      rw [hstep] at hflag hlen
      obtain ⟨-, hequal⟩ : acc.2.1 = false ∧ EndpointsEqualBeyondHash got endpoint = true := by
        simpa using keepDesired_flag endpoints _ hflag
      rcases List.mem_cons.mp he with rfl | he
      · obtain ⟨hmem, hhash⟩ := EndpointSet.Get_eq_some hget
        exact ⟨got, hmem, hhash, hequal⟩
      · obtain ⟨d, hd, hdhash, hdequal⟩ := ih _ hflag
          (by simp only [List.length_append, List.length_cons, List.length_nil] at hlen ⊢; omega)
          e he
        exact ⟨d, (EndpointSet.Delete_sublist _ _).subset hd, hdhash, hdequal⟩

/-- **Step 1 leaves current the slice it marks live**, for the endpoints desired before it. -/
theorem reconcileExistingSlice_current (service : Service) (st : PortMappingState)
    (existingSlice : EndpointSlice) (hn : existingSlice.name ∉ st.live) (slice : EndpointSlice)
    (hlive : existingSlice.name ∈ (reconcileExistingSlice service st existingSlice).live)
    (hs : (reconcileExistingSlice service st existingSlice).slicesByName.lookup existingSlice.name =
      some slice) :
    SliceCurrent service st.desiredSet.endpoints slice := by
  obtain ⟨kept, hkept, -, hdesired, -⟩ :=
    keepDesired_kept existingSlice.endpoints ([], false, st.desiredSet)
  rw [List.nil_append] at hkept
  have hcurrent := keepDesired_current existingSlice.endpoints ([], false, st.desiredSet)
  rw [hkept] at hcurrent
  unfold reconcileExistingSlice at hlive hs
  simp only [hkept] at hlive hs
  split_ifs at hlive hs with hupd hzero hgt hgt' hlabels
  · exact absurd hlive hn
  · exact absurd hlive hn
  all_goals simp only [AList.lookup_insert, Option.some.injEq] at hs
  all_goals subst hs
  · exact ⟨setEndpointSliceLabels_current service existingSlice rfl,
      fun e he => ⟨e, hdesired e he, rfl, EndpointsEqualBeyondHash_self e⟩⟩
  · exact ⟨setEndpointSliceLabels_current service existingSlice rfl,
      fun e he => ⟨e, hdesired e he, rfl, EndpointsEqualBeyondHash_self e⟩⟩
  all_goals
    simp only [Bool.or_eq_true, decide_eq_true_eq, not_or, not_not] at hupd
    obtain ⟨hflag, hall⟩ := hupd
  · exact ⟨setEndpointSliceLabels_current service existingSlice rfl,
      hcurrent (by simpa using hflag) (by simpa using hall.symm)⟩
  · exact ⟨by simpa using hlabels, hcurrent (by simpa using hflag) (by simpa using hall.symm)⟩

/-! ## The invariant -/

section

variable (service : Service) (desiredSet : EndpointSet)

/-- What holds of the state of `reconcileByPortMapping`: the live slices and the slices to create
are current for the desired set. -/
structure Current (st : PortMappingState) (slicesToCreate : List EndpointSlice) : Prop where
  live : ∀ n ∈ st.live, ∀ slice, st.slicesByName.lookup n = some slice →
    SliceCurrent service desiredSet.endpoints slice
  created : ∀ slice ∈ slicesToCreate, SliceCurrent service desiredSet.endpoints slice

end

variable {service : Service} {maxEndpointsPerSlice : ℕ} {desiredSet : EndpointSet}

theorem Current.init : Current service desiredSet (PortMappingState.init desiredSet) [] :=
  ⟨fun _ hn => by simp [PortMappingState.live, PortMappingState.init] at hn, fun _ h => nomatch h⟩

/-- **Step 1 for one more slice keeps the invariant.** -/
theorem Current.of_reconcileExistingSlice {processed : List EndpointSlice} {st : PortMappingState}
    (hP : Placement maxEndpointsPerSlice desiredSet processed st [])
    (h : Current service desiredSet st []) {existingSlice : EndpointSlice}
    (hfresh : existingSlice.name ∉ processed.map (·.name)) :
    Current service desiredSet (reconcileExistingSlice service st existingSlice) [] := by
  have hnlive : existingSlice.name ∉ st.live := fun hl =>
    hfresh ((hP.marked.mem_names _).mp (PortMappingState.mem_names_of_mem_live hl))
  obtain ⟨slice, kept, hmap, -, -, -, -, -, -, hcase⟩ :=
    reconcileExistingSlice_cases service st existingSlice
  have hlive : ∀ n ∈ (reconcileExistingSlice service st existingSlice).live,
      n = existingSlice.name ∨ n ∈ st.live := by
    intro n hn
    simp only [PortMappingState.live, List.mem_append] at hn ⊢
    rcases hcase with ⟨hU, hT, -⟩ | ⟨hU, hT, -⟩ | ⟨hU, hT, -⟩ <;>
      simp only [hU, hT, List.mem_insert_iff] at hn <;> tauto
  refine ⟨fun n hn s hs => ?_, fun _ h => absurd h List.not_mem_nil⟩
  rcases hlive n hn with rfl | hold
  · exact (reconcileExistingSlice_current service st _ hnlive s hn hs).mono
      hP.desired_sublist.subset
  · have hne : n ≠ existingSlice.name := fun he => hnlive (he ▸ hold)
    rw [hmap, AList.lookup_insert_ne hne] at hs
    exact h.live n hold s hs

/-- Step 1 keeps both invariants. -/
theorem Current.foldl_reconcileExistingSlice (slices : List EndpointSlice)
    {processed : List EndpointSlice} {st : PortMappingState}
    (hP : Placement maxEndpointsPerSlice desiredSet processed st [])
    (h : Current service desiredSet st []) (hnd : ((processed ++ slices).map (·.name)).Nodup) :
    Current service desiredSet (slices.foldl (reconcileExistingSlice service) st) [] :=
  (foldl_reconcileExistingSlice_rule service
    (fun processed st => Placement maxEndpointsPerSlice desiredSet processed st [] ∧
      Current service desiredSet st [])
    (fun _ _ _ h hfresh => ⟨h.1.of_reconcileExistingSlice service hfresh,
      h.2.of_reconcileExistingSlice h.1 hfresh⟩) slices ⟨hP, h⟩ hnd).2

/-! ## Step 2 -/

/-- Filling a live slice with desired endpoints keeps the invariant. -/
theorem Current.of_fillSliceToUpdate {st : PortMappingState} {slicesToCreate : List EndpointSlice}
    (h : Current service desiredSet st slicesToCreate)
    (hsub : st.desiredSet.endpoints ⊆ desiredSet.endpoints) {slice : EndpointSlice}
    (hT : slice.name ∈ st.sliceNamesToUpdate) (hs : st.slicesByName.lookup slice.name = some slice) :
    Current service desiredSet (fillSliceToUpdate maxEndpointsPerSlice st slice) slicesToCreate := by
  obtain ⟨taken, hfilled, htaken⟩ := fill_eq st.desiredSet maxEndpointsPerSlice slice
  have hname : (st.desiredSet.fill maxEndpointsPerSlice slice).1.name = slice.name := by
    rw [hfilled]
  refine ⟨fun n hn s hs' => ?_, h.created⟩
  rw [fillSliceToUpdate_eq, hname] at hs'
  by_cases hne : n = slice.name
  · rw [hne, AList.lookup_insert, Option.some.injEq, hfilled] at hs'
    subst hs'
    exact (h.live _ (List.mem_append_right _ hT) slice hs).fill fun e he =>
      hsub (htaken ▸ List.mem_append_left _ he)
  · rw [AList.lookup_insert_ne hne] at hs'
    exact h.live n hn s hs'

/-- **Step 2 keeps the invariant.** -/
theorem Current.of_fillSlicesToUpdate {processed slicesToCreate : List EndpointSlice}
    {st : PortMappingState}
    (hP : Placement maxEndpointsPerSlice desiredSet processed st slicesToCreate)
    (h : Current service desiredSet st slicesToCreate) :
    Current service desiredSet (fillSlicesToUpdate maxEndpointsPerSlice st) slicesToCreate :=
  (fillSlicesToUpdate_rule maxEndpointsPerSlice
    (fun st => Placement maxEndpointsPerSlice desiredSet processed st slicesToCreate ∧
      Current service desiredSet st slicesToCreate)
    (fun _ _ h hT hs => ⟨h.1.of_fillSliceToUpdate hT hs,
      h.2.of_fillSliceToUpdate h.1.desired_sublist.subset hT hs⟩)
    (fun n hn => hP.marked.lookup_name n (List.mem_append_left _ (List.mem_append_right _ hn)))
    (hP.marked.nodup.sublist ((List.sublist_append_right _ _).trans (List.sublist_append_left _ _)))
    ⟨hP, h⟩).2

/-! ## Step 3 -/

section Step3

variable (endpointMeta : EndpointMeta)

/-- **A turn of step 3 keeps the invariant.** -/
theorem Current.of_fillRemainingOnce {processed slicesToCreate : List EndpointSlice}
    {st : PortMappingState}
    (hP : Placement maxEndpointsPerSlice desiredSet processed st slicesToCreate)
    (h : Current service desiredSet st slicesToCreate)
    (hnames : ∀ slice ∈ processed, slice.name ≠ "") :
    Current service desiredSet
      (fillRemainingOnce service endpointMeta maxEndpointsPerSlice st slicesToCreate).1
      (fillRemainingOnce service endpointMeta maxEndpointsPerSlice st slicesToCreate).2 := by
  have hsub := hP.desired_sublist.subset
  cases hfound : findSliceToFill maxEndpointsPerSlice st with
  | some slice =>
    obtain ⟨hmem, -⟩ := findSliceToFill_spec hfound
    obtain ⟨n, hnU, hs⟩ := List.mem_filterMap.mp hmem
    obtain ⟨slice', hs', hname⟩ := hP.marked.lookup_name n
      (List.mem_append_left _ (List.mem_append_left _ hnU))
    rw [hs, Option.some.injEq] at hs'
    subst hs'
    have hnamed : slice.name ≠ "" := hnames slice (hP.lookup_processed n (.inl hnU) slice hs)
    rw [fillRemainingOnce_of_found service endpointMeta slicesToCreate hfound hnamed]
    obtain ⟨taken, hfilled, htaken⟩ := fill_eq st.desiredSet maxEndpointsPerSlice slice
    refine ⟨fun n' hn' s hs' => ?_, h.created⟩
    by_cases hne : n' = slice.name
    · rw [hne, AList.lookup_insert, Option.some.injEq, hfilled] at hs'
      subst hs'
      exact (h.live n (List.mem_append_left _ hnU) slice hs |>.fill fun e he =>
        hsub (htaken ▸ List.mem_append_left _ he))
    · -- another live name, live before and with its slice
      rw [AList.lookup_insert_ne hne] at hs'
      have hold : n' ∈ st.live := by
        simp only [PortMappingState.live, List.mem_append, List.mem_insert_iff] at hn' ⊢
        rcases hn' with hU | hT | hT
        · exact .inl (List.mem_of_mem_erase hU)
        · exact absurd hT hne
        · exact .inr hT
      exact h.live n' hold s hs'
  | none =>
    rw [fillRemainingOnce_of_none service endpointMeta slicesToCreate hfound]
    obtain ⟨taken, hfilled, htaken⟩ :=
      fill_eq st.desiredSet maxEndpointsPerSlice (newEndpointSlice service endpointMeta)
    refine ⟨h.live, fun s hs => ?_⟩
    rcases List.mem_append.mp hs with hs | hs
    · exact h.created s hs
    · rw [List.mem_singleton.mp hs, hfilled]
      exact (newEndpointSlice_current service endpointMeta).fill fun e he =>
        hsub (htaken ▸ List.mem_append_left _ he)

/-- **Step 3 keeps the invariant**, when it returns. -/
theorem Current.of_fillRemaining {processed slicesToCreate slicesToCreate' : List EndpointSlice}
    {st st' : PortMappingState}
    (hP : Placement maxEndpointsPerSlice desiredSet processed st slicesToCreate)
    (h : Current service desiredSet st slicesToCreate)
    (hnames : ∀ slice ∈ processed, slice.name ≠ "") (hpos : 0 < maxEndpointsPerSlice) (fuel : ℕ)
    (hrun : fillRemaining service endpointMeta maxEndpointsPerSlice fuel st slicesToCreate =
      some (st', slicesToCreate')) :
    Current service desiredSet st' slicesToCreate' :=
  (fillRemaining_rule service endpointMeta maxEndpointsPerSlice
    (fun st slicesToCreate => Placement maxEndpointsPerSlice desiredSet processed st slicesToCreate ∧
      Current service desiredSet st slicesToCreate)
    (fun _ _ h hne => ⟨(h.1.of_fillRemainingOnce service endpointMeta hnames hpos hne).1,
      h.2.of_fillRemainingOnce endpointMeta h.1 hnames⟩) fuel ⟨hP, h⟩ hrun).2

end Step3

end Kubernetes.EndpointSliceReconciler
