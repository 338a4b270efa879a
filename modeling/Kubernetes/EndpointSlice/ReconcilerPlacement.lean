import Mathlib
import Kubernetes.Foundations.Bins
import Kubernetes.EndpointSlice.ReconcilerSteps

/-!
# Every desired endpoint is placed once

What `reconcileByPortMapping` promises of the slices of one group of ports: after it, every
endpoint the Service should have is in exactly one slice, among the slices it creates, the slices
it updates and the slices it leaves unchanged.

`Placement` is what holds of its state after each step. The names the state has marked are the
names of the slices processed, each marked once, as unchanged, to update or to delete; the slice
under each name has that name, and a slice left unchanged or to delete is one of the slices
processed. The hashes in the live slices (unchanged, or to update) and in the slices to create,
together with those still in the desired set, are a permutation of the desired set's hashes: an
endpoint only ever moves from the desired set into a slice. A slice to create holds between one
and `maxEndpointsPerSlice` desired endpoints.

Each step keeps it: `Placement.reconcileExistingSlice` for step 1, `Placement.fillSlicesToUpdate`
for step 2, `Placement.fillRemainingOnce` for a turn of step 3. Step 3 then ends, with the set
empty, when `maxEndpointsPerSlice` is positive (`Placement.fillRemaining`).
-/

namespace Kubernetes.EndpointSliceReconciler

open Bins (contents)

/-- The names a state has marked: unchanged, to update, to delete. -/
def PortMappingState.names (st : PortMappingState) : List String :=
  st.sliceNamesUnchanged ++ st.sliceNamesToUpdate ++ st.sliceNamesToDelete

/-- The names of the live slices: unchanged, or to update. -/
def PortMappingState.live (st : PortMappingState) : List String :=
  st.sliceNamesUnchanged ++ st.sliceNamesToUpdate

/-- The hashes in the live slices of a state and in the slices to create. -/
def placed (st : PortMappingState) (slicesToCreate : List EndpointSlice) : List EndpointHash :=
  contents st.slicesByName st.live sliceHashes ++ slicesToCreate.flatMap sliceHashes

/-! ## The names -/

/-- The names a state has marked are those of the slices processed, each once, and each names
the slice stored under it. -/
structure Marked (processed : List EndpointSlice) (st : PortMappingState) : Prop where
  nodup : st.names.Nodup
  mem_names : ∀ n, n ∈ st.names ↔ n ∈ processed.map (·.name)
  lookup_name : ∀ n ∈ st.names, ∃ slice, st.slicesByName.lookup n = some slice ∧ slice.name = n

theorem PortMappingState.mem_names_of_mem_live {st : PortMappingState} {n : String}
    (hn : n ∈ st.live) : n ∈ st.names :=
  List.mem_append_left _ hn

namespace Marked

variable {processed : List EndpointSlice} {st st' : PortMappingState}

theorem live_nodup (h : Marked processed st) : st.live.Nodup :=
  h.nodup.sublist (List.sublist_append_left _ _)

/-- A fresh slice, marked and stored under its name, keeps the names right. -/
theorem mark {slice existingSlice : EndpointSlice} (h : Marked processed st)
    (hfresh : existingSlice.name ∉ processed.map (·.name))
    (hnames : st'.names.Perm (existingSlice.name :: st.names))
    (hmap : st'.slicesByName = st.slicesByName.insert existingSlice.name slice)
    (hname : slice.name = existingSlice.name) : Marked (processed ++ [existingSlice]) st' := by
  have hn : existingSlice.name ∉ st.names := fun hn => hfresh ((h.mem_names _).mp hn)
  refine ⟨hnames.nodup_iff.mpr (List.nodup_cons.mpr ⟨hn, h.nodup⟩), fun n => ?_, fun n hn' => ?_⟩
  · rw [hnames.mem_iff, List.mem_cons, h.mem_names, List.map_append, List.mem_append,
      List.map_singleton, List.mem_singleton]
    exact or_comm
  · rw [hmap]
    rcases List.mem_cons.mp (hnames.mem_iff.mp hn') with rfl | hold
    · exact ⟨slice, AList.lookup_insert _, hname⟩
    · rw [AList.lookup_insert_ne fun h' : n = existingSlice.name => hn (h' ▸ hold)]
      exact h.lookup_name n hold

/-- A slice filled under a marked name keeps the names right. -/
theorem fill {name : String} {slice : EndpointSlice} (h : Marked processed st)
    (hnames : st'.names.Perm st.names)
    (hmap : st'.slicesByName = st.slicesByName.insert name slice) (hname : slice.name = name) :
    Marked processed st' := by
  refine ⟨hnames.nodup_iff.mpr h.nodup, fun n => ?_, fun n hn => ?_⟩
  · rw [hnames.mem_iff, h.mem_names]
  · rw [hmap]
    by_cases hns : n = name
    · exact ⟨slice, by rw [hns, AList.lookup_insert], hname.trans hns.symm⟩
    · rw [AList.lookup_insert_ne hns]
      exact h.lookup_name n (hnames.mem_iff.mp hn)

end Marked

/-! ## The invariant -/

section

variable (maxEndpointsPerSlice : ℕ) (desiredSet : EndpointSet)

/-- What holds of the state of `reconcileByPortMapping` once the slices `processed` are processed
and the slices `slicesToCreate` are to be created. -/
structure Placement (processed : List EndpointSlice) (st : PortMappingState)
    (slicesToCreate : List EndpointSlice) : Prop where
  marked : Marked processed st
  lookup_processed : ∀ n, n ∈ st.sliceNamesUnchanged ∨ n ∈ st.sliceNamesToDelete →
    ∀ slice, st.slicesByName.lookup n = some slice → slice ∈ processed
  perm : (placed st slicesToCreate ++ st.desiredSet.endpoints.map hashEndpoint).Perm
    (desiredSet.endpoints.map hashEndpoint)
  desired_sublist : st.desiredSet.endpoints.Sublist desiredSet.endpoints
  created : ∀ slice ∈ slicesToCreate, slice.name = "" ∧ 0 < slice.endpoints.length ∧
    slice.endpoints.length ≤ maxEndpointsPerSlice ∧ ∀ e ∈ slice.endpoints, e ∈ desiredSet.endpoints
  updated_le : (∀ slice ∈ processed, slice.endpoints.length ≤ maxEndpointsPerSlice) →
    ∀ n ∈ st.sliceNamesToUpdate, ∀ slice, st.slicesByName.lookup n = some slice →
      slice.endpoints.length ≤ maxEndpointsPerSlice

end

variable {maxEndpointsPerSlice : ℕ} {desiredSet : EndpointSet}

theorem Placement.init :
    Placement maxEndpointsPerSlice desiredSet [] (PortMappingState.init desiredSet) [] where
  marked := ⟨List.nodup_nil, fun _ => by simp [PortMappingState.names, PortMappingState.init],
    fun _ hn => by simp [PortMappingState.names, PortMappingState.init] at hn⟩
  lookup_processed _ hn := by simp [PortMappingState.init] at hn
  perm := by simp [placed, PortMappingState.live, PortMappingState.init]
  desired_sublist := List.Sublist.refl _
  created _ h := nomatch h
  updated_le _ _ hn := nomatch hn

/-! ## Step 1 -/

section Step1

variable {st st' : PortMappingState} {name : String} {slice : EndpointSlice}

/-- Storing a slice under a name that is not live leaves the live slices as they were. -/
theorem contents_live_insert (hmap : st'.slicesByName = st.slicesByName.insert name slice)
    (hn : name ∉ st.live) :
    contents st'.slicesByName st.live sliceHashes = contents st.slicesByName st.live sliceHashes := by
  rw [hmap]
  exact Bins.contents_insert_of_not_mem _ _ hn slice

/-- A slice stored and marked live under a fresh name brings its hashes to the live slices. -/
theorem placed_mark_live (hmap : st'.slicesByName = st.slicesByName.insert name slice)
    (hn : name ∉ st.live) (hlive : st'.live.Perm (name :: st.live)) :
    (placed st' []).Perm (sliceHashes slice ++ placed st []) := by
  have h := Bins.contents_perm_names st'.slicesByName sliceHashes hlive
  rw [Bins.contents_cons, hmap, AList.lookup_insert, ← hmap, contents_live_insert hmap hn,
    Option.map_some, Option.getD_some] at h
  simpa only [placed, List.flatMap_nil, List.append_nil] using h

end Step1

/-- **Step 1 for one more slice keeps the invariant.** -/
theorem Placement.of_reconcileExistingSlice {processed : List EndpointSlice} {st : PortMappingState}
    (h : Placement maxEndpointsPerSlice desiredSet processed st []) (service : Service)
    {existingSlice : EndpointSlice} (hfresh : existingSlice.name ∉ processed.map (·.name)) :
    Placement maxEndpointsPerSlice desiredSet (processed ++ [existingSlice])
      (reconcileExistingSlice service st existingSlice) [] := by
  obtain ⟨slice, kept, hmap, hname, -, hperm, hsub, -, -, hcase⟩ :=
    reconcileExistingSlice_cases service st existingSlice
  generalize reconcileExistingSlice service st existingSlice = st' at *
  have hn : existingSlice.name ∉ st.names := fun hn => hfresh ((h.marked.mem_names _).mp hn)
  have hnU : existingSlice.name ∉ st.sliceNamesUnchanged := fun hU =>
    hn (List.mem_append_left _ (List.mem_append_left _ hU))
  have hnT : existingSlice.name ∉ st.sliceNamesToUpdate := fun hT =>
    hn (List.mem_append_left _ (List.mem_append_right _ hT))
  have hnX : existingSlice.name ∉ st.sliceNamesToDelete := fun hX => hn (List.mem_append_right _ hX)
  have hnlive : existingSlice.name ∉ st.live := fun hl =>
    hn (PortMappingState.mem_names_of_mem_live hl)
  have hnew : st'.slicesByName.lookup existingSlice.name = some slice := by
    rw [hmap, AList.lookup_insert]
  have hold : ∀ n, n ≠ existingSlice.name → st'.slicesByName.lookup n = st.slicesByName.lookup n :=
    fun n hne => by rw [hmap, AList.lookup_insert_ne hne]
  have hkept : placed st [] ++ st.desiredSet.endpoints.map hashEndpoint |>.Perm
      (desiredSet.endpoints.map hashEndpoint) := h.perm
  rcases hcase with ⟨hU, hT, hX, hslice, hh⟩ | ⟨hU, hT, hX, hh, hle⟩ | ⟨hU, hT, hX, hslice, rfl⟩
  · -- marked unchanged: the slice joins the live ones as it is
    rw [List.insert_of_not_mem hnU] at hU
    have hlive : st'.live = existingSlice.name :: st.live := by
      simp only [PortMappingState.live, hU, hT, List.cons_append]
    refine ⟨h.marked.mark hfresh (by simp only [PortMappingState.names, hU, hT, hX,
      List.cons_append, List.Perm.refl]) hmap hname, fun n hn' s hs => ?_,
      Bins.perm_move _ ((placed_mark_live hmap hnlive (hlive ▸ List.Perm.refl _)).trans
        (by rw [hh])) hperm hkept, hsub.trans h.desired_sublist, fun _ hs => (nomatch hs),
      fun hle n hn' s hs => ?_⟩
    · by_cases hne : n = existingSlice.name
      · rw [hne, hnew, hslice] at hs
        cases hs
        exact List.mem_append_right _ (List.mem_singleton_self _)
      · rw [hold n hne] at hs
        rw [hU, hX] at hn'
        exact List.mem_append_left _ (h.lookup_processed n
          (hn'.imp_left fun h' => (List.mem_cons.mp h').resolve_left hne) s hs)
    · rw [hT] at hn'
      rw [hold n fun he => hnT (he ▸ hn')] at hs
      exact h.updated_le (fun s' hs' => hle s' (List.mem_append_left _ hs')) n hn' s hs
  · -- marked to update: the slice joins the live ones with the hashes it keeps
    rw [List.insert_of_not_mem hnT] at hT
    have hlive : st'.live.Perm (existingSlice.name :: st.live) := by
      simp only [PortMappingState.live, hU, hT]
      exact List.perm_middle
    refine ⟨h.marked.mark hfresh ?_ hmap hname, fun n hn' s hs => ?_,
      Bins.perm_move _ ((placed_mark_live hmap hnlive hlive).trans (by rw [hh])) hperm hkept,
      hsub.trans h.desired_sublist, fun _ hs => (nomatch hs), fun hle' n hn' s hs => ?_⟩
    · simp only [PortMappingState.names, hU, hT, hX, List.append_assoc, List.cons_append]
      exact List.perm_middle
    · have hne : n ≠ existingSlice.name := fun he => by
        rw [hU, hX, he] at hn'
        exact hn'.elim hnU hnX
      rw [hold n hne] at hs
      rw [hU, hX] at hn'
      exact List.mem_append_left _ (h.lookup_processed n hn' s hs)
    · rw [hT] at hn'
      by_cases hne : n = existingSlice.name
      · rw [hne, hnew] at hs
        cases hs
        exact hle.trans (hle' existingSlice (List.mem_append_right _ (List.mem_singleton_self _)))
      · rw [hold n hne] at hs
        exact h.updated_le (fun s' hs' => hle' s' (List.mem_append_left _ hs')) n
          ((List.mem_cons.mp hn').resolve_left hne) s hs
  · -- marked to delete: the slice keeps nothing, and the live slices are as they were
    rw [List.insert_of_not_mem hnX] at hX
    have hlive : st'.live = st.live := by simp only [PortMappingState.live, hU, hT]
    refine ⟨h.marked.mark hfresh ?_ hmap hname, fun n hn' s hs => ?_, ?_,
      hsub.trans h.desired_sublist, fun _ hs => (nomatch hs), fun hle n hn' s hs => ?_⟩
    · simp only [PortMappingState.names, hU, hT, hX]
      exact List.perm_middle
    · by_cases hne : n = existingSlice.name
      · rw [hne, hnew, hslice] at hs
        cases hs
        exact List.mem_append_right _ (List.mem_singleton_self _)
      · rw [hold n hne] at hs
        rw [hU, hX] at hn'
        exact List.mem_append_left _ (h.lookup_processed n
          (hn'.imp_right fun h' => (List.mem_cons.mp h').resolve_left hne) s hs)
    · have hplaced : placed st' [] = placed st [] := by
        simp only [placed, hlive, contents_live_insert hmap hnlive]
      rw [hplaced]
      exact (hperm.append_left _).trans hkept
    · rw [hT] at hn'
      rw [hold n fun he => hnT (he ▸ hn')] at hs
      exact h.updated_le (fun s' hs' => hle s' (List.mem_append_left _ hs')) n hn' s hs

/-- Step 1 over slices with distinct names keeps the invariant. -/
theorem Placement.foldl_reconcileExistingSlice (service : Service) (slices : List EndpointSlice)
    {processed : List EndpointSlice} {st : PortMappingState}
    (h : Placement maxEndpointsPerSlice desiredSet processed st [])
    (hnd : ((processed ++ slices).map (·.name)).Nodup) :
    Placement maxEndpointsPerSlice desiredSet (processed ++ slices)
      (slices.foldl (reconcileExistingSlice service) st) [] :=
  foldl_reconcileExistingSlice_rule service
    (fun processed st => Placement maxEndpointsPerSlice desiredSet processed st [])
    (fun _ _ _ h hfresh => h.of_reconcileExistingSlice service hfresh) slices h hnd

/-! ## Filling -/

/-- Filling the live slice stored under `name` adds what it takes to the live slices. -/
theorem contents_fill {m : AList fun _ : String => EndpointSlice} {live : List String}
    (hnd : live.Nodup) {name : String} (hn : name ∈ live) {slice : EndpointSlice}
    (hs : m.lookup name = some slice) (taken : List Endpoint) :
    (contents (m.insert name { slice with endpoints := slice.endpoints ++ taken }) live
        sliceHashes).Perm (taken.map hashEndpoint ++ contents m live sliceHashes) := by
  have h₁ := Bins.contents_insert_perm m sliceHashes hnd hn
    { slice with endpoints := slice.endpoints ++ taken }
  have h₂ := Bins.contents_perm_of_mem m sliceHashes hn
  rw [hs, Option.map_some, Option.getD_some] at h₂
  refine h₁.trans ?_
  simp only [sliceHashes, List.map_append, List.append_assoc]
  exact (List.perm_append_comm_assoc _ _ _).trans ((h₂.append_left _).symm)

theorem Marked.congr {processed : List EndpointSlice} {st st' : PortMappingState}
    (h : Marked processed st) (hnames : st'.names = st.names)
    (hmap : st'.slicesByName = st.slicesByName) : Marked processed st' :=
  ⟨hnames ▸ h.nodup, fun n => hnames ▸ h.mem_names n, fun n hn => hmap ▸ h.lookup_name n (hnames ▸ hn)⟩

/-- **Filling a slice to update keeps the invariant.** -/
theorem Placement.of_fillSliceToUpdate {processed slicesToCreate : List EndpointSlice}
    {st : PortMappingState}
    (h : Placement maxEndpointsPerSlice desiredSet processed st slicesToCreate) {slice : EndpointSlice}
    (hT : slice.name ∈ st.sliceNamesToUpdate) (hs : st.slicesByName.lookup slice.name = some slice) :
    Placement maxEndpointsPerSlice desiredSet processed
      (fillSliceToUpdate maxEndpointsPerSlice st slice) slicesToCreate := by
  obtain ⟨taken, hfilled, htaken⟩ := fill_eq st.desiredSet maxEndpointsPerSlice slice
  have hlive : slice.name ∈ st.live := List.mem_append_right _ hT
  have hother : ∀ n, n ∈ st.sliceNamesUnchanged ∨ n ∈ st.sliceNamesToDelete → n ≠ slice.name :=
    fun n hn he => by
      have hnd := h.marked.nodup
      simp only [PortMappingState.names, List.nodup_append, List.mem_append] at hnd
      rcases hn with hU | hX
      · exact hnd.1.2.2 n hU n (he ▸ hT) rfl
      · exact hnd.2.2 n (.inr (he ▸ hT)) n hX rfl
  rw [fillSliceToUpdate_eq, hfilled]
  refine ⟨h.marked.fill (List.Perm.refl _) rfl rfl, fun n hn' s' hs' => ?_, ?_,
    (fill_sublist _ _ _).trans h.desired_sublist, h.created, fun hle n hn' s' hs' => ?_⟩
  · rw [AList.lookup_insert_ne (hother n hn')] at hs'
    exact h.lookup_processed n hn' s' hs'
  · refine Bins.perm_move (taken.map hashEndpoint) ?_ ?_ h.perm
    · have hc := contents_fill h.marked.live_nodup hlive hs taken
      simp only [placed, PortMappingState.live] at hc ⊢
      rw [← List.append_assoc]
      exact hc.append_right _
    · rw [← List.map_append, htaken]
  · by_cases hne : n = slice.name
    · rw [hne, AList.lookup_insert, Option.some.injEq] at hs'
      rw [← hs', ← hfilled]
      exact fillSlice_length_le (h.updated_le hle slice.name hT slice hs) _
    · rw [AList.lookup_insert_ne hne] at hs'
      exact h.updated_le hle n hn' s' hs'

/-- **Step 2 keeps the invariant.** -/
theorem Placement.of_fillSlicesToUpdate {processed slicesToCreate : List EndpointSlice}
    {st : PortMappingState}
    (h : Placement maxEndpointsPerSlice desiredSet processed st slicesToCreate) :
    Placement maxEndpointsPerSlice desiredSet processed
      (fillSlicesToUpdate maxEndpointsPerSlice st) slicesToCreate :=
  fillSlicesToUpdate_rule maxEndpointsPerSlice
    (fun st => Placement maxEndpointsPerSlice desiredSet processed st slicesToCreate)
    (fun _ _ h hT hs => h.of_fillSliceToUpdate hT hs)
    (fun n hn => h.marked.lookup_name n (List.mem_append_left _ (List.mem_append_right _ hn)))
    (h.marked.nodup.sublist ((List.sublist_append_right _ _).trans (List.sublist_append_left _ _)))
    h

/-! ## Step 3 -/

theorem EndpointSet.Len_pos {s : EndpointSet} (h : 0 < s.Len) : s.endpoints ≠ [] :=
  List.ne_nil_of_length_pos h

/-- **A turn of step 3 keeps the invariant, and takes at least one endpoint.** -/
theorem Placement.of_fillRemainingOnce (service : Service) (endpointMeta : EndpointMeta)
    {processed slicesToCreate : List EndpointSlice} {st : PortMappingState}
    (h : Placement maxEndpointsPerSlice desiredSet processed st slicesToCreate)
    (hnames : ∀ slice ∈ processed, slice.name ≠ "") (hpos : 0 < maxEndpointsPerSlice)
    (hne : 0 < st.desiredSet.Len) :
    Placement maxEndpointsPerSlice desiredSet processed
        (fillRemainingOnce service endpointMeta maxEndpointsPerSlice st slicesToCreate).1
        (fillRemainingOnce service endpointMeta maxEndpointsPerSlice st slicesToCreate).2 ∧
      (fillRemainingOnce service endpointMeta maxEndpointsPerSlice st slicesToCreate).1.desiredSet.Len <
        st.desiredSet.Len ∧
      (fillRemainingOnce service endpointMeta maxEndpointsPerSlice st slicesToCreate).1.numRemoved =
        st.numRemoved := by
  cases hfound : findSliceToFill maxEndpointsPerSlice st with
  | some slice =>
    obtain ⟨hmem, hroom⟩ := findSliceToFill_spec hfound
    obtain ⟨n, hnU, hs⟩ := List.mem_filterMap.mp hmem
    have hnnames : n ∈ st.names := List.mem_append_left _ (List.mem_append_left _ hnU)
    obtain ⟨slice', hs', hname⟩ := h.marked.lookup_name n hnnames
    rw [hs, Option.some.injEq] at hs'
    subst hs'
    have hnonempty : slice.name ≠ "" := by
      obtain ⟨s', hs'', hn'⟩ := List.mem_map.mp ((h.marked.mem_names n).mp hnnames)
      rw [hname, ← hn']
      exact hnames s' hs''
    have hnd := h.marked.nodup
    simp only [PortMappingState.names, List.nodup_append, List.mem_append] at hnd
    have hnT : n ∉ st.sliceNamesToUpdate := fun hT => hnd.1.2.2 n hnU n hT rfl
    have hnX : n ∉ st.sliceNamesToDelete := fun hX => hnd.2.2 n (.inl hnU) n hX rfl
    rw [fillRemainingOnce_of_found service endpointMeta slicesToCreate hfound hnonempty]
    obtain ⟨taken, hfilled, htaken⟩ := fill_eq st.desiredSet maxEndpointsPerSlice slice
    rw [hfilled, hname, List.insert_of_not_mem hnT]
    dsimp only
    have hlive : (st.sliceNamesUnchanged.erase n ++ n :: st.sliceNamesToUpdate).Perm st.live :=
      List.perm_middle.trans ((List.perm_cons_erase hnU).symm.append_right _)
    have hlen : slice.endpoints.length < maxEndpointsPerSlice := by omega
    have hfill_le : (slice.endpoints ++ taken).length ≤ maxEndpointsPerSlice := by
      have hle := fillSlice_length_le (le_of_lt hlen) st.desiredSet.endpoints
      change (st.desiredSet.fill maxEndpointsPerSlice slice).1.endpoints.length ≤ _ at hle
      rw [hfilled] at hle
      exact hle
    refine ⟨⟨h.marked.fill (hlive.append_right _) rfl rfl, fun n' hn' s' hs' => ?_, ?_,
      (fill_sublist _ _ _).trans h.desired_sublist, h.created, fun _ n' hn' s' hs' => ?_⟩, ?_⟩
    · have hne' : n' ≠ n := fun he => by
        rw [he] at hn'
        exact hn'.elim (h.marked.nodup.sublist (List.sublist_append_left _ _) |>.sublist
          (List.sublist_append_left _ _)).not_mem_erase hnX
      rw [AList.lookup_insert_ne hne'] at hs'
      exact h.lookup_processed n' (hn'.imp_left List.mem_of_mem_erase) s' hs'
    · refine Bins.perm_move (taken.map hashEndpoint) ?_ ?_ h.perm
      · have hc := contents_fill h.marked.live_nodup (List.mem_append_left _ hnU) hs taken
        rw [hname] at hc
        have hc' := (Bins.contents_perm_names _ sliceHashes hlive).trans hc
        simp only [placed, PortMappingState.live] at hc' ⊢
        rw [← List.append_assoc]
        exact hc'.append_right _
      · rw [← List.map_append, htaken]
    · rcases List.mem_cons.mp hn' with rfl | hT
      · rw [AList.lookup_insert, Option.some.injEq] at hs'
        rw [← hs']
        exact hfill_le
      · rw [AList.lookup_insert_ne fun he : n' = n => hnT (he ▸ hT)] at hs'
        exact h.updated_le ‹_› n' hT s' hs'
    · exact ⟨fillSlice_length_lt hlen (EndpointSet.Len_pos hne), rfl⟩
  | none =>
    rw [fillRemainingOnce_of_none service endpointMeta slicesToCreate hfound]
    obtain ⟨taken, hfilled, htaken⟩ :=
      fill_eq st.desiredSet maxEndpointsPerSlice (newEndpointSlice service endpointMeta)
    have hroom : (newEndpointSlice service endpointMeta).endpoints.length < maxEndpointsPerSlice :=
      hpos
    have hlt := fillSlice_length_lt hroom (EndpointSet.Len_pos hne)
    have htaken_ne : taken ≠ [] := by
      rintro rfl
      rw [List.nil_append] at htaken
      have hsame : (fillSlice maxEndpointsPerSlice (newEndpointSlice service endpointMeta)
          st.desiredSet.endpoints).2 = st.desiredSet.endpoints := htaken
      rw [hsame] at hlt
      exact lt_irrefl _ hlt
    have hplaced : placed { st with desiredSet :=
          (st.desiredSet.fill maxEndpointsPerSlice (newEndpointSlice service endpointMeta)).2 }
        (slicesToCreate ++
          [(st.desiredSet.fill maxEndpointsPerSlice (newEndpointSlice service endpointMeta)).1]) =
        placed st slicesToCreate ++ taken.map hashEndpoint := by
      have hnew : (newEndpointSlice service endpointMeta).endpoints = [] := rfl
      simp only [placed, PortMappingState.live, List.flatMap_append, List.flatMap_singleton]
      rw [hfilled]
      simp only [sliceHashes, hnew, List.nil_append, List.append_assoc]
    refine ⟨⟨h.marked.congr rfl rfl, h.lookup_processed, ?_,
      (fill_sublist _ _ _).trans h.desired_sublist, fun s hs => ?_, h.updated_le⟩, hlt, rfl⟩
    · refine Bins.perm_move (taken.map hashEndpoint) ?_ ?_ h.perm
      · rw [hplaced]
        exact List.perm_append_comm
      · rw [← List.map_append, htaken]
    · rcases List.mem_append.mp hs with hs | hs
      · exact h.created s hs
      · rw [List.mem_singleton.mp hs, hfilled]
        refine ⟨rfl, ?_, ?_, fun e he => ?_⟩
        · simpa [newEndpointSlice] using List.length_pos_of_ne_nil htaken_ne
        · rw [← hfilled]
          exact fillSlice_length_le (Nat.zero_le _) _
        · simp only [newEndpointSlice, List.nil_append] at he
          exact h.desired_sublist.subset (htaken ▸ List.mem_append_left _ he)

/-- **Step 3 ends, with every desired endpoint placed**, when `maxEndpointsPerSlice` is positive
and the loop has at least as many turns as there are endpoints left. -/
theorem Placement.of_fillRemaining (service : Service) (endpointMeta : EndpointMeta)
    {processed : List EndpointSlice} (hnames : ∀ slice ∈ processed, slice.name ≠ "")
    (hpos : 0 < maxEndpointsPerSlice) (fuel : ℕ) :
    ∀ {st : PortMappingState} {slicesToCreate : List EndpointSlice},
      Placement maxEndpointsPerSlice desiredSet processed st slicesToCreate →
      st.desiredSet.Len ≤ fuel →
      ∃ st' slicesToCreate',
        fillRemaining service endpointMeta maxEndpointsPerSlice fuel st slicesToCreate =
          some (st', slicesToCreate') ∧
        Placement maxEndpointsPerSlice desiredSet processed st' slicesToCreate' ∧
        st'.desiredSet.Len = 0 ∧ st'.numRemoved = st.numRemoved := by
  induction fuel with
  | zero =>
    intro st slicesToCreate h hle
    refine ⟨st, slicesToCreate, ?_, h, by omega, rfl⟩
    rw [fillRemaining, if_neg (by omega)]
  | succ fuel ih =>
    intro st slicesToCreate h hle
    by_cases hne : st.desiredSet.Len > 0
    · -- a turn takes an endpoint, so the turns left are enough for the endpoints left
      obtain ⟨h₁, hlt, hrem₁⟩ := h.of_fillRemainingOnce service endpointMeta hnames hpos hne
      obtain ⟨st', slicesToCreate', hrun, h', hlen, hrem⟩ := ih h₁ (by omega)
      refine ⟨st', slicesToCreate', ?_, h', hlen, hrem.trans hrem₁⟩
      rw [fillRemaining, if_pos hne]
      exact hrun
    · refine ⟨st, slicesToCreate, ?_, h, by omega, rfl⟩
      rw [fillRemaining, if_neg hne]

end Kubernetes.EndpointSliceReconciler
