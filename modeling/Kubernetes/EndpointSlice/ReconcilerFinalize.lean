import Mathlib
import Kubernetes.EndpointSlice.ReconcilerPlan

/-!
# `finalize` turns creates into updates

Before it calls the API server, `finalize` saves a create and a delete where it can: the last slice
to create takes the name of a slice to delete of its address type owned by the Service, and is sent
as an update of it, which then is not deleted.

`finalizeLoop_spec` says what the loop does: it pairs the last slices to create, from the end, with
slices to delete, and keeps the others to delete, in order. From it,
`finalize_keeps_applied`: the slices the Service has once the plan is applied, as labels and
endpoints, are those it would have had without the rewrite, and each update the rewrite adds takes
over a slice to delete, owned and of its address type, each slice to delete at most once.
-/

namespace Kubernetes.EndpointSliceReconciler

/-- What `finalizeLoop` does: the slices to create it turns into updates are its last ones, taken
from the end, each paired with a slice to delete whose name it takes; the slices to delete it keeps
are the others, in order. -/
theorem finalizeLoop_spec (service : Service) (slicesToDelete : List EndpointSlice) :
    ∀ slicesToCreate slicesToUpdate passed : List EndpointSlice,
      ∃ (pairs : List (EndpointSlice × EndpointSlice)) (kept created : List EndpointSlice),
        finalizeLoop service slicesToCreate slicesToUpdate passed slicesToDelete =
          (created, slicesToUpdate ++ pairs.map (fun p => { p.1 with name := p.2.name }),
            passed ++ kept) ∧
        created ++ (pairs.map Prod.fst).reverse = slicesToCreate ∧
        (pairs.map Prod.snd ++ kept).Perm slicesToDelete ∧ kept.Sublist slicesToDelete ∧
        ∀ p ∈ pairs, p.2.addressType = p.1.addressType ∧ ownedBy p.2 service = true := by
  induction slicesToDelete with
  | nil =>
    intro slicesToCreate slicesToUpdate passed
    exact ⟨[], [], slicesToCreate, by simp [finalizeLoop], by simp, by simp, .slnil, by simp⟩
  | cons sliceToDelete slicesToDelete ih =>
    intro slicesToCreate slicesToUpdate passed
    cases hlast : slicesToCreate.getLast? with
    | none =>
      refine ⟨[], sliceToDelete :: slicesToDelete, slicesToCreate, ?_, by simp, by simp,
        .refl _, by simp⟩
      rw [finalizeLoop, hlast, List.map_nil, List.append_nil]
    | some slice =>
      by_cases hmatch : sliceToDelete.addressType = slice.addressType ∧
          ownedBy sliceToDelete service = true
      · -- the last slice to create takes over this slice to delete
        obtain ⟨pairs, kept, created, hrun, hcreated, hperm, hsub, hpairs⟩ :=
          ih slicesToCreate.dropLast
            (slicesToUpdate ++ [{ slice with name := sliceToDelete.name }]) passed
        refine ⟨(slice, sliceToDelete) :: pairs, kept, created, ?_, ?_, hperm.cons _, hsub.cons _,
          fun p hp => ?_⟩
        · rw [finalizeLoop, hlast]
          dsimp only
          rw [if_pos hmatch, hrun, List.map_cons, List.append_assoc, List.singleton_append]
        · rw [List.map_cons, List.reverse_cons, ← List.append_assoc, hcreated]
          exact List.dropLast_append_getLast? _ hlast
        · rcases List.mem_cons.mp hp with rfl | hp
          · exact hmatch
          · exact hpairs p hp
      · -- the loop passes over this slice to delete
        obtain ⟨pairs, kept, created, hrun, hcreated, hperm, hsub, hpairs⟩ :=
          ih slicesToCreate slicesToUpdate (passed ++ [sliceToDelete])
        refine ⟨pairs, sliceToDelete :: kept, created, ?_, hcreated,
          List.perm_middle.trans (hperm.cons _), hsub.cons_cons _, hpairs⟩
        rw [finalizeLoop, hlast]
        dsimp only
        rw [if_neg hmatch, hrun, List.append_assoc, List.singleton_append]

/-- `unchangedSlices` reads only the names of the slices to update and to delete. -/
theorem unchangedSlices_congr {existingSlices slicesToUpdate slicesToDelete slicesToUpdate'
    slicesToDelete' : List EndpointSlice}
    (h : ∀ n, n ∈ (slicesToUpdate' ++ slicesToDelete').map (·.name) ↔
      n ∈ (slicesToUpdate ++ slicesToDelete).map (·.name)) :
    unchangedSlices existingSlices slicesToUpdate' slicesToDelete' =
      unchangedSlices existingSlices slicesToUpdate slicesToDelete := by
  unfold unchangedSlices
  refine List.filter_congr fun slice _ => ?_
  simp only [mem_foldl_insert_name, List.not_mem_nil, false_or, h]

/-- The names the slices taken over get and the names still deleted are the names the plan
deletes, each as often. -/
theorem takenOver_names_perm {pairs : List (EndpointSlice × EndpointSlice)}
    {kept slicesToDelete : List EndpointSlice} (hperm : (pairs.map Prod.snd ++ kept).Perm slicesToDelete) :
    ((pairs.map fun p : EndpointSlice × EndpointSlice => ({ p.1 with name := p.2.name } : EndpointSlice)).map
        (·.name) ++ kept.map (·.name)).Perm (slicesToDelete.map (·.name)) := by
  have htaken : (pairs.map fun p : EndpointSlice × EndpointSlice =>
      ({ p.1 with name := p.2.name } : EndpointSlice)).map (·.name) =
        (pairs.map Prod.snd).map (·.name) := by
    simp only [List.map_map, Function.comp_def]
  rw [htaken, ← List.map_append]
  exact hperm.map _

/-- **`finalize` keeps every view of the applied slices that does not read their names.** With the
Service not being deleted, the slices the Service has once the finalized plan is applied are, up to
their names and their order, those it would have had with the plan as made. -/
theorem finalize_applied_map {β : Type*} (g : EndpointSlice → β)
    (hg : ∀ slice name, g { slice with name := name } = g slice) (service : Service)
    (existingSlices slicesToCreate slicesToUpdate slicesToDelete : List EndpointSlice) :
    ∃ slicesToCreate' slicesToUpdate' slicesToDelete',
      finalize service false slicesToCreate slicesToUpdate slicesToDelete =
        (slicesToCreate', slicesToUpdate', slicesToDelete') ∧
      ((slicesToCreate' ++ slicesToUpdate' ++
          unchangedSlices existingSlices slicesToUpdate' slicesToDelete').map g).Perm
        ((slicesToCreate ++ slicesToUpdate ++
          unchangedSlices existingSlices slicesToUpdate slicesToDelete).map g) := by
  obtain ⟨pairs, kept, created, hrun, hcreated, hperm, -, -⟩ :=
    finalizeLoop_spec service slicesToDelete slicesToCreate slicesToUpdate []
  set takenOver := pairs.map fun p : EndpointSlice × EndpointSlice =>
    ({ p.1 with name := p.2.name } : EndpointSlice) with htakenOver
  have hnames : (takenOver.map (·.name) ++ kept.map (·.name)).Perm (slicesToDelete.map (·.name)) :=
    takenOver_names_perm hperm
  have hunchanged : unchangedSlices existingSlices (slicesToUpdate ++ takenOver) kept =
      unchangedSlices existingSlices slicesToUpdate slicesToDelete :=
    unchangedSlices_congr fun n => by
      have hn := hnames.mem_iff (a := n)
      rw [List.mem_append] at hn
      simp only [List.append_assoc, List.map_append, List.mem_append, hn]
  have hcontents : takenOver.map g = (pairs.map Prod.fst).map g := by
    simp only [htakenOver, List.map_map]
    exact List.map_congr_left fun p _ => hg p.1 p.2.name
  refine ⟨created, slicesToUpdate ++ takenOver, kept, by simp [finalize, hrun], ?_⟩
  rw [hunchanged, ← hcreated]
  simp only [List.map_append, List.map_reverse, List.append_assoc, hcontents]
  refine List.Perm.append_left _ ?_
  rw [← List.append_assoc, ← List.append_assoc]
  refine List.Perm.append_right _ ?_
  exact List.perm_append_comm.trans ((List.reverse_perm _).symm.append_right _)

/-- **`finalize` keeps what the plan gives the Service.** With the Service not being deleted, the
slices the Service has once the finalized plan is applied (those created, those updated, and the
existing ones neither updated nor deleted) have, as labels and endpoints, the slices it would have
had with the plan as made; the slices deleted are some of those the plan deletes. Each update the
rewrite adds comes after the plan's updates and takes the name of a slice to delete of its address
type owned by the Service; those names and the names still deleted are the names the plan deletes,
each as often. -/
theorem finalize_keeps_applied (service : Service)
    (existingSlices slicesToCreate slicesToUpdate slicesToDelete : List EndpointSlice) :
    ∃ slicesToCreate' slicesToUpdate' slicesToDelete',
      finalize service false slicesToCreate slicesToUpdate slicesToDelete =
        (slicesToCreate', slicesToUpdate', slicesToDelete') ∧
      ((slicesToCreate' ++ slicesToUpdate' ++
          unchangedSlices existingSlices slicesToUpdate' slicesToDelete').map
            fun slice => (slice.labels, slice.endpoints)).Perm
        ((slicesToCreate ++ slicesToUpdate ++
          unchangedSlices existingSlices slicesToUpdate slicesToDelete).map
            fun slice => (slice.labels, slice.endpoints)) ∧
      slicesToDelete'.Sublist slicesToDelete ∧
      slicesToUpdate.IsPrefix slicesToUpdate' ∧
      ((slicesToUpdate'.drop slicesToUpdate.length).map (·.name) ++
        slicesToDelete'.map (·.name)).Perm (slicesToDelete.map (·.name)) ∧
      ∀ slice ∈ slicesToUpdate'.drop slicesToUpdate.length, ∃ sliceToDelete ∈ slicesToDelete,
        sliceToDelete.name = slice.name ∧ sliceToDelete.addressType = slice.addressType ∧
        ownedBy sliceToDelete service = true := by
  obtain ⟨pairs, kept, created, hrun, -, hperm, hsub, hpairs⟩ :=
    finalizeLoop_spec service slicesToDelete slicesToCreate slicesToUpdate []
  set takenOver := pairs.map fun p : EndpointSlice × EndpointSlice =>
    ({ p.1 with name := p.2.name } : EndpointSlice) with htakenOver
  have hfinalize : finalize service false slicesToCreate slicesToUpdate slicesToDelete =
      (created, slicesToUpdate ++ takenOver, kept) := by
    simp [finalize, hrun]
  have hdrop : (slicesToUpdate ++ takenOver).drop slicesToUpdate.length = takenOver :=
    List.drop_left
  obtain ⟨_, _, _, hfinalize', happlied⟩ := finalize_applied_map
    (fun slice => (slice.labels, slice.endpoints)) (fun _ _ => rfl) service existingSlices
    slicesToCreate slicesToUpdate slicesToDelete
  rw [hfinalize, Prod.mk.injEq, Prod.mk.injEq] at hfinalize'
  obtain ⟨rfl, rfl, rfl⟩ := hfinalize'
  have hnames : (takenOver.map (·.name) ++ kept.map (·.name)).Perm (slicesToDelete.map (·.name)) :=
    takenOver_names_perm hperm
  refine ⟨_, _, _, hfinalize, happlied, hsub, ⟨_, rfl⟩, by rw [hdrop]; exact hnames,
    fun slice hslice => ?_⟩
  rw [hdrop] at hslice
  obtain ⟨p, hp, rfl⟩ := List.mem_map.mp hslice
  obtain ⟨haddr, howned⟩ := hpairs p hp
  exact ⟨p.2, hperm.subset (List.mem_append_left _ (List.mem_map_of_mem hp)), rfl, haddr, howned⟩


/-- Two slices to create take over the owned slices `a` and `b`; `old` is not owned by the Service,
and is still deleted with `c`. -/
example :
    (fun plan : List EndpointSlice × List EndpointSlice × List EndpointSlice =>
        (plan.1.length, plan.2.1.map (·.name), plan.2.2.map (·.name)))
      (finalize ⟨"web", "u", ∅, "10.0.0.1"⟩ false
        [⟨"", "web-", [⟨"u", "Service", "v1"⟩], ∅, .ipv4, [], []⟩,
          ⟨"", "web-", [⟨"u", "Service", "v1"⟩], ∅, .ipv4, [], []⟩] []
        [⟨"old", "web-", [], ∅, .ipv4, [], []⟩,
          ⟨"a", "web-", [⟨"u", "Service", "v1"⟩], ∅, .ipv4, [], []⟩,
          ⟨"b", "web-", [⟨"u", "Service", "v1"⟩], ∅, .ipv4, [], []⟩,
          ⟨"c", "web-", [⟨"u", "Service", "v1"⟩], ∅, .ipv4, [], []⟩]) =
      (0, ["a", "b"], ["old", "c"]) := by
  decide

end Kubernetes.EndpointSliceReconciler
