import Mathlib
import Kubernetes.Foundations.GoSlice
import Kubernetes.TopologyManager.Bitmask

/-!
# `IterateBitMasks` over shared slices

`IterateBitMasks(bits, callback)` builds each subset in a slice `accum`, by
`append(accum, bits[i])`. Sibling calls of its recursion append to the same `accum`: once `accum`
has room past its length they write into one array, each over what the one before wrote.
`OnSlices.iterateBitMasks` follows those writes through `Go.Arrays`; `iterateBitMasks` of
`Bitmask` reads the accumulator as a list.

* `OnSlices.iterate_refines`, `OnSlices.iterateBitMasks_refines`: whatever capacities `append`
  picks, the calls back are those of the list model. A call writes only past the length of the
  slice it is given (`OnSlices.loop_keeps`), so what a sibling writes over is past the length of
  every slice still to be read.
* `iterate_perm_sublistsLen`: the calls of one size are the sublists of that length, in another
  order than `List.sublistsLen`'s, and `perm_sublists'`: with the empty list, all of them are the
  sublists. For distinct bits, `IterateBitMasks` so calls back once with the mask of each
  non-empty subset, with nothing else, and by increasing size
  (`OnSlices.iterateBitMasks_calls_back_each_subset_once`).
-/

namespace Kubernetes.TopologyManager.BitMask

/-! ## The callbacks of the list model -/

namespace iterateBitMasks

/-- The accumulators `iterate` calls back with, in order: those of one element, then of two, up
to `len(bits)`. -/
def accums (bits : List ℤ) : List (List ℤ) :=
  (List.range' 1 bits.length).flatMap fun size => iterate size [] bits

theorem iterate_of_length_eq {size : ℕ} {accum : List ℤ} (h : accum.length = size)
    (bits : List ℤ) : iterate size accum bits = [accum] := by
  cases bits <;> simp [iterate, h]

theorem iterate_cons_of_length_ne {size : ℕ} {accum : List ℤ} (h : accum.length ≠ size)
    (b : ℤ) (bits : List ℤ) :
    iterate size accum (b :: bits) = iterate size (accum ++ [b]) bits ++ iterate size accum bits := by
  rw [iterate, if_neg h]

/-- The calls of one size complete the accumulator by the sublists of the length missing, in
another order than `List.sublistsLen`'s. -/
theorem iterate_perm_sublistsLen {size : ℕ} (bits : List ℤ) :
    ∀ {accum : List ℤ}, accum.length ≤ size →
      (iterate size accum bits).Perm ((bits.sublistsLen (size - accum.length)).map (accum ++ ·)) := by
  induction bits with
  | nil =>
    intro accum hle
    by_cases hfull : accum.length = size
    · simp [iterate_of_length_eq hfull, hfull]
    · obtain ⟨k, hk⟩ : ∃ k, size - accum.length = k + 1 := ⟨size - accum.length - 1, by omega⟩
      simp [iterate, hfull, hk]
  | cons b bits ih =>
    intro accum hle
    by_cases hfull : accum.length = size
    · simp [iterate_of_length_eq hfull, hfull]
    · obtain ⟨k, hk⟩ : ∃ k, size - accum.length = k + 1 := ⟨size - accum.length - 1, by omega⟩
      have htake := @ih (accum ++ [b]) (by simp; omega)
      have hleave := ih hle
      rw [show size - (accum ++ [b]).length = k by simp; omega] at htake
      rw [hk] at hleave
      rw [iterate_cons_of_length_ne hfull, hk, List.sublistsLen_succ_cons, List.map_append,
        List.map_map]
      refine (htake.append hleave).trans (List.perm_append_comm.trans ?_)
      simp [Function.comp_def]

/-- With the empty list, the accumulators are the sublists. -/
theorem perm_sublists' (bits : List ℤ) : ([] :: accums bits).Perm bits.sublists' := by
  refine List.Perm.trans ?_ (List.range_bind_sublistsLen_perm bits)
  rw [List.range_eq_range', List.range'_succ, List.flatMap_cons, List.sublistsLen_zero,
    List.singleton_append]
  refine List.Perm.cons _ (List.Perm.flatMap_left _ fun size _ => ?_)
  simpa using @iterate_perm_sublistsLen size bits [] (Nat.zero_le size)

theorem length_accums (bits : List ℤ) : (accums bits).length = 2 ^ bits.length - 1 := by
  have := (perm_sublists' bits).length_eq
  rw [List.length_cons, List.length_sublists'] at this
  omega

theorem sublist_of_mem_accums {bits l : List ℤ} (hl : l ∈ accums bits) : l.Sublist bits :=
  List.mem_sublists'.mp ((perm_sublists' bits).subset (List.mem_cons_of_mem _ hl))

theorem nodup_accums {bits : List ℤ} (h : bits.Nodup) : (accums bits).Nodup :=
  (List.nodup_cons.mp ((perm_sublists' bits).nodup_iff.mpr (List.nodup_sublists'.mpr h))).2

/-- Smaller accumulators come first. -/
theorem pairwise_length_accums (bits : List ℤ) :
    (accums bits).Pairwise fun l l' => l.length ≤ l'.length := by
  have hlen : ∀ size, ∀ l ∈ iterate size [] bits, l.length = size := by
    intro size l hl
    obtain ⟨_, _, _, hlen⟩ := (mem_iterate bits (Nat.zero_le size)).mp hl
    exact hlen
  unfold accums
  rw [List.pairwise_flatMap]
  constructor
  · intro size _
    exact List.pairwise_of_forall_mem_list fun l hl l' hl' => by rw [hlen size l hl, hlen size l' hl']
  · refine (List.pairwise_lt_range' (s := 1) (n := bits.length)).imp fun hlt l hl l' hl' => ?_
    rw [hlen _ l hl, hlen _ l' hl']
    exact le_of_lt hlt

theorem iterateBitMasks_eq_map_accums (bits : List ℤ) :
    iterateBitMasks bits = (accums bits).map newBitMask := by
  rw [iterateBitMasks, accums, List.map_flatMap]

end iterateBitMasks

open iterateBitMasks

/-! ## The masks of the list model -/

theorem newBitMask_isSome_of_sublist {bits l : List ℤ} (hrange : ∀ b ∈ bits, 0 ≤ b ∧ b < 64)
    (hl : l.Sublist bits) : (newBitMask l).isSome :=
  (add_isSome_iff empty l).mpr fun i hi => hrange i (hl.subset hi)

theorem val_ne_zero_iff_exists_mem_getBits {s : BitMask} : s.val ≠ 0 ↔ ∃ b, b ∈ s.getBits := by
  rw [Ne, ← count_eq_zero, count_eq_length_getBits, List.length_eq_zero_iff]
  exact ⟨List.exists_mem_of_ne_nil _, fun ⟨_, hb⟩ => List.ne_nil_of_mem hb⟩

/-- A mask is called back exactly when it is a non-empty set of the bits. -/
theorem some_mem_iterateBitMasks {bits : List ℤ} {s : BitMask} :
    some s ∈ iterateBitMasks bits ↔ s.val ≠ 0 ∧ ∀ b ∈ s.getBits, b ∈ bits := by
  rw [mem_iterateBitMasks]
  constructor
  · rintro ⟨l, hl, hne, hs⟩
    have hmem : ∀ b, b ∈ s.getBits ↔ b ∈ l := fun b => mem_getBits_of_newBitMask hs.symm
    obtain ⟨b, hb⟩ := List.exists_mem_of_ne_nil l hne
    exact ⟨val_ne_zero_iff_exists_mem_getBits.mpr ⟨b, (hmem b).mpr hb⟩,
      fun b hb => hl.subset ((hmem b).mp hb)⟩
  · rintro ⟨h0, hbits⟩
    let l := bits.filter fun b => decide (b ∈ s.getBits)
    have hmem : ∀ b, b ∈ l ↔ b ∈ s.getBits := fun b => by
      simp only [l, List.mem_filter, decide_eq_true_eq]
      exact ⟨fun h => h.2, fun h => ⟨hbits b h, h⟩⟩
    obtain ⟨m, hm⟩ := Option.isSome_iff_exists.mp ((add_isSome_iff empty l).mpr fun i hi =>
      let ⟨h0, h64, _⟩ := mem_getBits.mp ((hmem i).mp hi); ⟨h0, h64⟩)
    have hms : m = s := ext_getBits fun b => by rw [mem_getBits_of_newBitMask hm, hmem]
    obtain ⟨b, hb⟩ := val_ne_zero_iff_exists_mem_getBits.mp h0
    exact ⟨l, List.filter_sublist, List.ne_nil_of_mem ((hmem b).mpr hb), by rw [newBitMask, hm, hms]⟩

/-- For distinct bits, no mask is called back twice: a sublist of a list without duplicates is
fixed by its elements. -/
theorem nodup_iterateBitMasks {bits : List ℤ} (hnodup : bits.Nodup)
    (hrange : ∀ b ∈ bits, 0 ≤ b ∧ b < 64) : (iterateBitMasks bits).Nodup := by
  rw [iterateBitMasks_eq_map_accums]
  refine List.Nodup.map_on (fun l hl l' hl' heq => ?_) (nodup_accums hnodup)
  have hsub := sublist_of_mem_accums hl
  have hsub' := sublist_of_mem_accums hl'
  obtain ⟨m, hm⟩ := Option.isSome_iff_exists.mp (newBitMask_isSome_of_sublist hrange hsub)
  have hm' : newBitMask l' = some m := heq ▸ hm
  have hperm : l.Perm l' := (List.perm_ext_iff_of_nodup (hsub.nodup hnodup) (hsub'.nodup hnodup)).mpr
    fun b => by rw [← mem_getBits_of_newBitMask hm, mem_getBits_of_newBitMask hm']
  exact (hnodup.perm_iff_eq_of_sublist hsub hsub').mp hperm

/-- For bits in range, every call back has a mask. -/
theorem iterateBitMasks_eq_map_some {bits : List ℤ} (hrange : ∀ b ∈ bits, 0 ≤ b ∧ b < 64) :
    iterateBitMasks bits = ((accums bits).filterMap newBitMask).map some := by
  rw [List.map_filterMap_some_eq_filter_map_isSome, iterateBitMasks_eq_map_accums]
  refine (List.filter_eq_self.mpr fun x hx => ?_).symm
  obtain ⟨l, hl, rfl⟩ := List.mem_map.mp hx
  exact newBitMask_isSome_of_sublist hrange (sublist_of_mem_accums hl)

/-- For distinct bits, the masks come by increasing number of bits. -/
theorem pairwise_count_filterMap_accums {bits : List ℤ} (hnodup : bits.Nodup) :
    ((accums bits).filterMap newBitMask).Pairwise fun s s' => s.count ≤ s'.count := by
  refine List.Pairwise.filterMap newBitMask (fun l l' h s hs s' hs' => ?_)
    (List.Pairwise.and_mem.mp (pairwise_length_accums bits))
  obtain ⟨hl, hl', hle⟩ := h
  rw [count_of_newBitMask hs ((sublist_of_mem_accums hl).nodup hnodup),
    count_of_newBitMask hs' ((sublist_of_mem_accums hl').nodup hnodup)]
  exact hle

/-! ## The calls on shared arrays -/

namespace OnSlices

open Go Go.Arrays

/-- The loop `for i := range bits { iterate(bits[i+1:], append(accum, bits[i]), size) }` of
`iterate(bits, accum, size)`, on the arrays `m`: the arrays it leaves, and the masks it calls
back with, in order. `bits` is only read, and shares no array with the accumulators, which start
from `[]int{}`. -/
def iterateBitMasks.loop (g : Growth) (size : ℕ) :
    List ℤ → SliceHeader → Arrays ℤ → Arrays ℤ × List (Option BitMask)
  | [], _, m => (m, [])
  | b :: rest, accum, m =>
    let appended := m.append g accum b
    -- the call `iterate(rest, appended, size)`: its size check, then its own loop over `rest`
    let call :=
      if appended.2.len = size then (appended.1, [newBitMask (appended.1.toList appended.2)])
      else loop g size rest appended.2 appended.1
    -- the next turn appends to `accum` again, over the arrays the call left
    let next := loop g size rest accum call.1
    (next.1, call.2 ++ next.2)

/-- `iterate(bits, accum, size)`: call back with `NewBitMask(accum...)` once `accum` has `size`
elements, and otherwise extend it by each of `bits` in turn. -/
def iterateBitMasks.iterate (g : Growth) (size : ℕ) (bits : List ℤ) (accum : SliceHeader)
    (m : Arrays ℤ) : Arrays ℤ × List (Option BitMask) :=
  if accum.len = size then (m, [newBitMask (m.toList accum)])
  else iterateBitMasks.loop g size bits accum m

/-- `IterateBitMasks(bits, callback)`: `iterate(bits, []int{}, i)` for `i` from 1 to `len(bits)`,
each on the arrays the one before left; the masks it calls back with, in order. -/
def iterateBitMasks (g : Growth) (bits : List ℤ) (m : Arrays ℤ) :
    Arrays ℤ × List (Option BitMask) :=
  (List.range' 1 bits.length).foldl
    (fun done size =>
      let call := iterateBitMasks.iterate g size bits SliceHeader.empty done.1
      (call.1, done.2 ++ call.2))
    (m, [])

namespace iterateBitMasks

variable (g : Growth) (size : ℕ)

/-- The loop's body, with the call it makes. -/
theorem loop_cons (b : ℤ) (rest : List ℤ) (accum : SliceHeader) (m : Arrays ℤ) :
    loop g size (b :: rest) accum m =
      let appended := m.append g accum b
      let call := iterate g size rest appended.2 appended.1
      let next := loop g size rest accum call.1
      (next.1, call.2 ++ next.2) := rfl

/-- A full accumulator is called back with, in both models. -/
theorem iterate_refines_of_len_eq {bits : List ℤ} {accum : SliceHeader} (h : accum.len = size)
    (m : Arrays ℤ) : (iterate g size bits accum m).2 =
      (BitMask.iterateBitMasks.iterate size (m.toList accum) bits).map newBitMask := by
  rw [iterate, if_pos h, BitMask.iterateBitMasks.iterate_of_length_eq (by simpa using h)]
  rfl

theorem iterate_of_len_ne {bits : List ℤ} {accum : SliceHeader} (h : accum.len ≠ size)
    (m : Arrays ℤ) : iterate g size bits accum m = loop g size bits accum m := by
  rw [iterate, if_neg h]

/-- A loop changes nothing its caller reads: only what is past the length of `accum`, in its
array, or arrays it allocated itself. -/
theorem loop_keeps (bits : List ℤ) :
    ∀ (accum : SliceHeader) (m : Arrays ℤ), m.Keeps (loop g size bits accum m).1 accum := by
  induction bits with
  | nil => exact fun accum m => Keeps.refl m accum
  | cons b rest ih =>
    intro accum m
    have hcall : m.Keeps (iterate g size rest (m.append g accum b).2 (m.append g accum b).1).1
        accum := by
      apply keeps_of_append
      unfold iterate
      split
      · exact Keeps.refl _ _
      · exact ih _ _
    rw [loop_cons]
    exact hcall.trans (ih accum _)

theorem iterate_keeps (bits : List ℤ) (accum : SliceHeader) (m : Arrays ℤ) :
    m.Keeps (iterate g size bits accum m).1 accum := by
  unfold iterate
  split
  · exact Keeps.refl m accum
  · exact loop_keeps g size bits accum m

/-- **The calls on shared arrays are those of the list model**, from any allocated slice. -/
theorem iterate_refines (bits : List ℤ) :
    ∀ {accum : SliceHeader} {m : Arrays ℤ}, m.Allocated accum →
      (iterate g size bits accum m).2 =
        (BitMask.iterateBitMasks.iterate size (m.toList accum) bits).map newBitMask := by
  induction bits with
  | nil =>
    intro accum m _
    by_cases hfull : accum.len = size
    · exact iterate_refines_of_len_eq g size hfull m
    · rw [iterate_of_len_ne g size hfull]
      simp [loop, BitMask.iterateBitMasks.iterate, hfull]
  | cons b rest ih =>
    intro accum m hs
    by_cases hfull : accum.len = size
    · exact iterate_refines_of_len_eq g size hfull m
    · -- the call sees `accum` and `b`; the next turn sees `accum` again, though the call may
      have hcall := iterate_keeps g size rest (m.append g accum b).2 (m.append g accum b).1
      have hkeeps := keeps_of_append g b hcall
      rw [iterate_of_len_ne g size hfull, loop_cons,
        BitMask.iterateBitMasks.iterate_cons_of_length_ne (by simpa using hfull), List.map_append]
      dsimp only
      rw [ih (allocated_append g b hs), toList_append,
        ← iterate_of_len_ne g size hfull, ih (hs.mono hkeeps.next_le), toList_of_keeps hkeeps hs]

/-- **`IterateBitMasks` on shared arrays calls back as the list model does**, whatever the
capacities `append` gives its copies and whatever the arrays hold before. -/
theorem iterateBitMasks_refines (bits : List ℤ) (m : Arrays ℤ) :
    (OnSlices.iterateBitMasks g bits m).2 = BitMask.iterateBitMasks bits := by
  -- the loop over sizes, from any arrays and callbacks already made
  have hrun : ∀ (sizes : List ℕ) (done : Arrays ℤ × List (Option BitMask)),
      (sizes.foldl (fun done size =>
        let call := iterate g size bits SliceHeader.empty done.1
        (call.1, done.2 ++ call.2)) done).2 =
        done.2 ++ sizes.flatMap fun size =>
          (BitMask.iterateBitMasks.iterate size [] bits).map newBitMask := by
    intro sizes
    induction sizes with
    | nil => simp
    | cons size sizes ih =>
      intro done
      rw [List.foldl_cons, ih, List.flatMap_cons, ← List.append_assoc]
      dsimp only
      rw [iterate_refines g size bits (allocated_empty done.1), toList_empty]
  rw [OnSlices.iterateBitMasks, hrun]
  rfl

end iterateBitMasks

open iterateBitMasks

theorem iterateBitMasks_calls_back_each_subset_once (g : Growth) (m : Arrays ℤ) {bits : List ℤ}
    (hnodup : bits.Nodup) (hrange : ∀ b ∈ bits, 0 ≤ b ∧ b < 64) :
    ∃ masks : List BitMask, (iterateBitMasks g bits m).2 = masks.map some ∧ masks.Nodup ∧
      masks.length = 2 ^ bits.length - 1 ∧
      (∀ s, s ∈ masks ↔ s.val ≠ 0 ∧ ∀ b ∈ s.getBits, b ∈ bits) ∧
      masks.Pairwise fun s s' => s.count ≤ s'.count := by
  have hsome := iterateBitMasks_eq_map_some hrange
  refine ⟨(accums bits).filterMap newBitMask, ?_, ?_, ?_, ?_, ?_⟩
  · rw [iterateBitMasks_refines, hsome]
  · have := nodup_iterateBitMasks hnodup hrange
    rwa [hsome, List.nodup_map_iff (Option.some_injective _)] at this
  · have := congrArg List.length hsome
    rwa [List.length_map, iterateBitMasks_eq_map_accums, List.length_map, length_accums,
      eq_comm] at this
  · intro s
    rw [← some_mem_iterateBitMasks, hsome, List.mem_map_of_injective (Option.some_injective _)]
  · exact pairwise_count_filterMap_accums hnodup

theorem iterateBitMasks_calls_back_each_subset_once_three_bits :
    ([0, 1, 2] : List ℤ).Nodup ∧ (∀ b ∈ ([0, 1, 2] : List ℤ), 0 ≤ b ∧ b < 64) ∧
      ∃ masks : List BitMask,
        (iterateBitMasks Growth.doubling [0, 1, 2] ⟨fun _ _ => 0, 0⟩).2 = masks.map some ∧
        masks.Nodup ∧ masks.length = 2 ^ 3 - 1 ∧
        (∀ s, s ∈ masks ↔ s.val ≠ 0 ∧ ∀ b ∈ s.getBits, b ∈ ([0, 1, 2] : List ℤ)) ∧
        masks.Pairwise fun s s' => s.count ≤ s'.count :=
  ⟨by decide, by decide,
    iterateBitMasks_calls_back_each_subset_once Growth.doubling ⟨fun _ _ => 0, 0⟩ (by decide)
      (by decide)⟩

end OnSlices

end Kubernetes.TopologyManager.BitMask
