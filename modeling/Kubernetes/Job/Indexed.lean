import Mathlib
import Kubernetes.Foundations.GoStd
import Kubernetes.Foundations.GoStrconv

/-!
# Completion indexes of an Indexed Job

`pkg/controller/job/indexed_job_utils.go`. Each pod of an Indexed Job carries its completion index
in an annotation. The Job controller creates pods for the first indexes that no succeeded or
active pod holds (`firstPendingIndexes`), and removes the active pods that repeat an index or hold
none (`appendDuplicatedIndexPodsForRemoval`).

* `firstPendingIndexes_eq`: when no index held is `math.MaxInt64`, the indexes created are the
  first `count` indexes below `completions` held by no succeeded or active pod, in ascending
  order. An index of `math.MaxInt64` makes the next candidate wrap to `math.MinInt64`, which is
  then returned (`firstPendingIndexes_wraps_maxInt64`).
* `appendDuplicatedIndexPodsForRemoval_spec`: the active pods are split into the removed and the
  kept, every pod without an index is removed, and the kept pods hold each index present once.

`sort.Sort` is `List.insertionSort` on the same comparison, one of the orders Go's sort may
produce; the pods of one index are ordered by `controller.ActivePods`, whose `Less` is
`activePodsLess`. A pod's time is `none` where Go's is the zero time.
-/

namespace Kubernetes.JobController

/-- `v1.PodPhase`. -/
inductive PodPhase
  | pending
  | running
  | succeeded
  | failed
  | unknown
  deriving DecidableEq

/-- A `v1.Pod`, what the Job controller reads of it: `deleting` is a set deletion timestamp,
`completionIndex` the value of the completion index annotation, `ready` and `readyTime` the Ready
condition and its last transition, `restarts` the most restarts of a container. -/
structure Pod where
  name : String
  phase : PodPhase
  deleting : Bool
  completionIndex : Option String
  nodeName : String
  ready : Bool
  readyTime : Option ℤ
  restarts : ℕ
  creationTimestamp : Option ℤ
  deriving DecidableEq

/-- `controller.IsPodActive`. -/
def Pod.isActive (p : Pod) : Bool :=
  p.phase ≠ .succeeded ∧ p.phase ≠ .failed ∧ !p.deleting

/-- `unknownCompletionIndex`. -/
def unknownCompletionIndex : ℤ := -1

/-- `getCompletionIndex`: the annotation as a nonnegative integer, `-1` where it is missing or
is not one. -/
def getCompletionIndex (value : Option String) : ℤ :=
  match value with
  | none => unknownCompletionIndex
  | some v =>
    match Go.atoi v.toList with
    | .error _ => unknownCompletionIndex
    | .ok i => if i < 0 then unknownCompletionIndex else i

/-- The completion index of a pod. -/
def Pod.index (p : Pod) : ℤ := getCompletionIndex p.completionIndex

theorem Pod.index_ne_unknown_iff (p : Pod) : p.index ≠ unknownCompletionIndex ↔ 0 ≤ p.index := by
  unfold Pod.index getCompletionIndex unknownCompletionIndex
  split
  · simp
  · split
    · simp
    · split_ifs <;> omega

/-! ## `controller.ActivePods` -/

/-- `podPhaseToOrdinal`, which other phases read as `0`. -/
def podPhaseToOrdinal : PodPhase → ℕ
  | .pending => 0
  | .unknown => 1
  | .running => 2
  | _ => 0

/-- `afterOrZero`: a zero time is after every other, and otherwise the later is. -/
def afterOrZero (t1 t2 : Option ℤ) : Bool :=
  match t1, t2 with
  | some t1, some t2 => t2 < t1
  | t1, _ => t1.isNone

/-- `ActivePods.Less`: unassigned before assigned, pending before unknown before running, not
ready before ready, ready more recently first, more restarts first, newer first. -/
def activePodsLess (p q : Pod) : Bool :=
  if p.nodeName ≠ q.nodeName ∧ (p.nodeName = "" ∨ q.nodeName = "") then p.nodeName = ""
  else if podPhaseToOrdinal p.phase ≠ podPhaseToOrdinal q.phase then
    podPhaseToOrdinal p.phase < podPhaseToOrdinal q.phase
  else if p.ready ≠ q.ready then !p.ready
  else if p.ready ∧ q.ready ∧ p.readyTime ≠ q.readyTime then afterOrZero p.readyTime q.readyTime
  else if p.restarts ≠ q.restarts then q.restarts < p.restarts
  else if p.creationTimestamp ≠ q.creationTimestamp then
    afterOrZero p.creationTimestamp q.creationTimestamp
  else false

/-! ## Pending indexes -/

/-- `nonPending.List()`: the indexes of the succeeded and the active pods, ascending, each once. -/
def nonPendingIndexes (pods : List Pod) : List ℤ :=
  (((pods.filter fun p => p.phase = .succeeded ∨ p.isActive).map Pod.index).filter
    fun ix => ix ≠ unknownCompletionIndex).dedup.insertionSort (· ≤ ·)

/-- The integers from `lo` up to `hi`, `hi` excluded. -/
def intRange (lo hi : ℤ) : List ℤ :=
  (List.range (hi - lo).toNat).map fun i : ℕ => lo + (i : ℤ)

/-- `for ; candidate < bound; candidate++ { result = append(result, candidate); if len(result) ==
count { return result } }`: the candidates below `bound` appended until `count` are there. -/
def appendCandidates (count : ℕ) (result : List ℤ) (candidate bound : ℤ) : List ℤ :=
  result ++ (intRange candidate bound).take (count - result.length)

/-- One non-pending index `np` of `firstPendingIndexes`' loop: the candidates below it (and below
`completions`) are pending, and the next candidate is past it. `np+1` is an `int` sum, which
wraps at `math.MaxInt64`. -/
def pendingStep (count : ℕ) (completions : ℤ) (acc : List ℤ × ℤ) (np : ℤ) : List ℤ × ℤ :=
  (appendCandidates count acc.1 acc.2 (min np completions), Go.toInt64 (np + 1))

/-- `firstPendingIndexes`. Once `count` indexes are there, the loop has returned, and the steps
after it append nothing. -/
def firstPendingIndexes (pods : List Pod) (count : ℕ) (completions : ℤ) : List ℤ :=
  if count = 0 then []
  else
    let (result, candidate) := (nonPendingIndexes pods).foldl (pendingStep count completions) ([], 0)
    appendCandidates count result candidate completions

theorem mem_intRange {lo hi x : ℤ} : x ∈ intRange lo hi ↔ lo ≤ x ∧ x < hi := by
  simp only [intRange, List.mem_map, List.mem_range]
  constructor
  · rintro ⟨i, hi, rfl⟩
    omega
  · intro h
    exact ⟨(x - lo).toNat, by omega, by omega⟩

theorem intRange_append {lo mid hi : ℤ} (h₁ : lo ≤ mid) (h₂ : mid ≤ hi) :
    intRange lo mid ++ intRange mid hi = intRange lo hi := by
  unfold intRange
  rw [show (hi - lo).toNat = (mid - lo).toNat + (hi - mid).toNat by omega, List.range_add,
    List.map_append, List.map_map]
  congr 1
  refine List.map_congr_left fun i _ => ?_
  simp only [Function.comp_apply]
  push_cast
  omega

theorem intRange_succ (x : ℤ) : intRange x (x + 1) = [x] := by
  simp [intRange]

theorem intRange_eq_nil {lo hi : ℤ} (h : hi ≤ lo) : intRange lo hi = [] := by
  simp [intRange, show (hi - lo).toNat = 0 by omega]

/-- The candidates of an interval below a bound are the interval cut at the bound. -/
theorem filter_lt_intRange (lo hi c : ℤ) :
    (intRange lo hi).filter (fun i => decide (i < c)) = intRange lo (min hi c) := by
  by_cases hlo : min hi c ≤ lo
  · rw [intRange_eq_nil hlo, List.filter_eq_nil_iff]
    intro i hi'
    rw [mem_intRange] at hi'
    simp only [decide_eq_true_eq]
    omega
  · rw [← intRange_append (by omega : lo ≤ min hi c) (min_le_left hi c), List.filter_append,
      List.filter_eq_self.mpr, List.filter_eq_nil_iff.mpr, List.append_nil]
    · intro i hi'
      rw [mem_intRange] at hi'
      simp only [decide_eq_true_eq]
      omega
    · intro i hi'
      rw [mem_intRange] at hi'
      simp only [decide_eq_true_eq]
      omega

/-- The indexes below `b`, and below `completions`, held by no pod of `nonPending`. -/
def pendingBelow (nonPending : List ℤ) (completions b : ℤ) : List ℤ :=
  (intRange 0 b).filter fun i => i < completions ∧ i ∉ nonPending

theorem nonPendingIndexes_sorted (pods : List Pod) :
    (nonPendingIndexes pods).Pairwise (· < ·) := by
  have hsorted := List.pairwise_insertionSort (· ≤ ·)
    (((pods.filter fun p => p.phase = .succeeded ∨ p.isActive).map Pod.index).filter
      fun ix => ix ≠ unknownCompletionIndex).dedup
  have hnodup : (nonPendingIndexes pods).Nodup :=
    (List.perm_insertionSort _ _).nodup_iff.mpr (List.nodup_dedup _)
  exact (hsorted.and hnodup).imp fun h => lt_of_le_of_ne h.1 h.2

theorem nonneg_of_mem_nonPendingIndexes {pods : List Pod} {x : ℤ}
    (h : x ∈ nonPendingIndexes pods) : 0 ≤ x := by
  rw [nonPendingIndexes, (List.perm_insertionSort _ _).mem_iff, List.mem_dedup, List.mem_filter,
    List.mem_map] at h
  obtain ⟨⟨p, -, rfl⟩, hknown⟩ := h
  exact (Pod.index_ne_unknown_iff p).mp (of_decide_eq_true hknown)

/-- Appending candidates to the first `count` of a list takes the first `count` of the longer
list. -/
theorem appendCandidates_take (count : ℕ) (l : List ℤ) (candidate bound : ℤ) :
    appendCandidates count (l.take count) candidate bound =
      (l ++ intRange candidate bound).take count := by
  rw [appendCandidates, List.take_append, List.length_take]
  congr 2
  omega

/-- The loop of `firstPendingIndexes` over the non-pending indexes from `candidate` on: each
index ends a run of pending candidates. -/
theorem foldl_pendingStep {nonPending : List ℤ} (count : ℕ) (completions : ℤ)
    (hmax : ∀ x ∈ nonPending, x < 2 ^ 63 - 1) :
    ∀ (nps : List ℤ) (candidate : ℤ), nps.Pairwise (· < ·) → (∀ x ∈ nps, x ∈ nonPending) →
      0 ≤ candidate → (∀ x ∈ nps, candidate ≤ x) →
      (∀ x ∈ nonPending, x < candidate ∨ x ∈ nps) →
      ∃ candidate', 0 ≤ candidate' ∧ (∀ x ∈ nonPending, x < candidate') ∧
        nps.foldl (pendingStep count completions)
            ((pendingBelow nonPending completions candidate).take count, candidate) =
          ((pendingBelow nonPending completions candidate').take count, candidate') := by
  intro nps
  induction nps with
  | nil =>
    intro candidate _ _ hcand _ hnp
    exact ⟨candidate, hcand, fun x hx => (hnp x hx).resolve_right List.not_mem_nil, rfl⟩
  | cons np nps ih =>
    intro candidate hsorted hsub hcand hge hnp
    obtain ⟨hnpLt, hsorted'⟩ := List.pairwise_cons.mp hsorted
    have hle : candidate ≤ np := hge np List.mem_cons_self
    have hgap : ∀ x ∈ intRange candidate np, x ∉ nonPending := by
      intro x hx hxnp
      rw [mem_intRange] at hx
      rcases hnp x hxnp with hlt | hmem
      · omega
      · rcases List.mem_cons.mp hmem with rfl | hmem
        · omega
        · have := hnpLt x hmem
          omega
    have hnext : pendingBelow nonPending completions (np + 1) =
        pendingBelow nonPending completions candidate ++ intRange candidate (min np completions) := by
      unfold pendingBelow
      rw [← intRange_append hcand (by omega : candidate ≤ np + 1),
        ← intRange_append hle (by omega : np ≤ np + 1), intRange_succ, List.filter_append,
        List.filter_append, ← filter_lt_intRange]
      congr 1
      have hnpIn := hsub np List.mem_cons_self
      simp only [List.filter_singleton, hnpIn, not_true_eq_false, and_false, decide_false,
        cond_false, List.append_nil]
      refine List.filter_congr fun x hx => ?_
      simp [hgap x hx]
    have hnpMax := hmax np (hsub np List.mem_cons_self)
    rw [List.foldl_cons, pendingStep]
    dsimp only
    rw [Go.toInt64_of_lt (by omega) (by omega), appendCandidates_take, ← hnext]
    refine ih (np + 1) hsorted' (fun x hx => hsub x (List.mem_cons_of_mem np hx)) (by omega)
      (fun x hx => by have := hnpLt x hx; omega) fun x hx => ?_
    rcases hnp x hx with hlt | hmem
    · exact .inl (by omega)
    · rcases List.mem_cons.mp hmem with rfl | hmem
      · exact .inl (by omega)
      · exact .inr hmem

/-- `firstPendingIndexes` returns the first `count` indexes below `completions` that no
succeeded or active pod holds, in ascending order. -/
theorem firstPendingIndexes_eq {pods : List Pod} (count : ℕ) (completions : ℤ)
    (hmax : ∀ i ∈ nonPendingIndexes pods, i < 2 ^ 63 - 1) :
    firstPendingIndexes pods count completions =
      ((intRange 0 completions).filter fun i => i ∉ nonPendingIndexes pods).take count := by
  unfold firstPendingIndexes
  split_ifs with hcount
  · simp [hcount]
  obtain ⟨candidate, hcand, hbelow, hfold⟩ := @foldl_pendingStep (nonPendingIndexes pods)
    count completions hmax (nonPendingIndexes pods) 0 (nonPendingIndexes_sorted pods) (fun _ h => h)
    le_rfl (fun x hx => nonneg_of_mem_nonPendingIndexes hx) (fun x hx => .inr hx)
  have hstart : pendingBelow (nonPendingIndexes pods) completions 0 = [] := by
    simp [pendingBelow, intRange_eq_nil]
  rw [hstart, List.take_nil] at hfold
  rw [hfold]
  dsimp only
  rw [appendCandidates_take]
  congr 1
  unfold pendingBelow
  by_cases hle : candidate ≤ completions
  · rw [← intRange_append hcand hle, List.filter_append]
    congr 1
    · refine List.filter_congr fun x hx => ?_
      rw [mem_intRange] at hx
      simp [show x < completions by omega]
    · refine (List.filter_eq_self.mpr fun x hx => ?_).symm
      rw [mem_intRange] at hx
      simpa using fun hmem => absurd (hbelow x hmem) (by omega)
  · have hmax : intRange 0 (max 0 completions) = intRange 0 completions := by
      simp only [intRange]
      congr 2
      omega
    have hpast : (intRange (max 0 completions) candidate).filter
        (fun i => decide (i < completions ∧ i ∉ nonPendingIndexes pods)) = [] :=
      List.filter_eq_nil_iff.mpr fun x hx => by
        rw [mem_intRange] at hx
        simp [show ¬x < completions by omega]
    rw [intRange_eq_nil (by omega : completions ≤ candidate), List.append_nil, ← hmax,
      ← intRange_append (le_max_left 0 completions) (by omega : max 0 completions ≤ candidate),
      List.filter_append, hpast, List.append_nil]
    refine List.filter_congr fun x hx => ?_
    rw [mem_intRange] at hx
    simp [show x < completions by omega]

/-- A succeeded or active pod holds the index `i`. -/
def heldBy (pods : List Pod) (i : ℤ) : Bool :=
  pods.any fun p => (p.phase = .succeeded ∨ p.isActive) ∧ p.index = i

theorem mem_nonPendingIndexes {pods : List Pod} {i : ℤ} :
    i ∈ nonPendingIndexes pods ↔ 0 ≤ i ∧ heldBy pods i := by
  rw [nonPendingIndexes, (List.perm_insertionSort _ _).mem_iff, List.mem_dedup, List.mem_filter,
    List.mem_map]
  simp only [heldBy, List.any_eq_true, List.mem_filter, decide_eq_true_eq]
  constructor
  · rintro ⟨⟨p, ⟨hp, hheld⟩, rfl⟩, hknown⟩
    exact ⟨(Pod.index_ne_unknown_iff p).mp hknown, p, hp, hheld, rfl⟩
  · rintro ⟨hnonneg, p, hp, hheld, rfl⟩
    exact ⟨⟨p, ⟨hp, hheld⟩, rfl⟩, (Pod.index_ne_unknown_iff p).mpr hnonneg⟩

/-- `firstPendingIndexes` returns the first `count` indexes below `completions` held by no
succeeded or active pod. -/
theorem firstPendingIndexes_eq_heldBy {pods : List Pod} (count : ℕ) (completions : ℤ)
    (hmax : ∀ i ∈ nonPendingIndexes pods, i < 2 ^ 63 - 1) :
    firstPendingIndexes pods count completions =
      ((intRange 0 completions).filter fun i => !heldBy pods i).take count := by
  rw [firstPendingIndexes_eq count completions hmax]
  congr 1
  refine List.filter_congr fun i hi => ?_
  rw [mem_intRange] at hi
  simp [mem_nonPendingIndexes, hi.1]

theorem intRange_nodup (lo hi : ℤ) : (intRange lo hi).Nodup := by
  unfold intRange
  exact (List.nodup_range).map fun i j h => by simpa using h

/-- The indexes `firstPendingIndexes` returns are distinct, below `completions`, and held by no
succeeded or active pod. -/
theorem firstPendingIndexes_nodup {pods : List Pod} (count : ℕ) (completions : ℤ)
    (hmax : ∀ i ∈ nonPendingIndexes pods, i < 2 ^ 63 - 1) :
    (firstPendingIndexes pods count completions).Nodup := by
  rw [firstPendingIndexes_eq_heldBy count completions hmax]
  exact ((intRange_nodup 0 completions).filter _).sublist (List.take_sublist _ _)

theorem mem_firstPendingIndexes {pods : List Pod} {count : ℕ} {completions i : ℤ}
    (hmax : ∀ i ∈ nonPendingIndexes pods, i < 2 ^ 63 - 1)
    (h : i ∈ firstPendingIndexes pods count completions) :
    0 ≤ i ∧ i < completions ∧ heldBy pods i = false := by
  rw [firstPendingIndexes_eq_heldBy count completions hmax] at h
  obtain ⟨hi, hheld⟩ := List.mem_filter.mp (List.mem_of_mem_take h)
  rw [mem_intRange] at hi
  exact ⟨hi.1, hi.2, by simpa using hheld⟩

/-- `appendPodsWithSameIndexForRemovalAndRemaining`: the pods of an unknown index are removed;
of the pods of one index, all but the last in the `ActivePods` order are. -/
def appendPodsWithSameIndexForRemovalAndRemaining (rm left pods : List Pod) (ix : ℤ) :
    List Pod × List Pod :=
  if ix = unknownCompletionIndex then (rm ++ pods, left)
  else if pods.length = 1 then (rm, left ++ pods)
  else
    let pods := pods.insertionSort fun p q => activePodsLess p q
    (rm ++ pods.dropLast, left ++ pods.getLast?.toList)

/-- One pod of `appendDuplicatedIndexPodsForRemoval`'s loop, on the pods removed, the pods kept,
the run of pods of the last index and that index: a new index ends the run. -/
def duplicateStep (acc : List Pod × List Pod × List Pod × ℤ) (p : Pod) :
    List Pod × List Pod × List Pod × ℤ :=
  if p.index ≠ acc.2.2.2 then
    let (rm, left) := appendPodsWithSameIndexForRemovalAndRemaining acc.1 acc.2.1 acc.2.2.1 acc.2.2.2
    (rm, left, [p], p.index)
  else (acc.1, acc.2.1, acc.2.2.1 ++ [p], acc.2.2.2)

/-- `appendDuplicatedIndexPodsForRemoval`: the pods sorted by index, each run of one index handed
to `appendPodsWithSameIndexForRemovalAndRemaining`. -/
def appendDuplicatedIndexPodsForRemoval (rm left pods : List Pod) : List Pod × List Pod :=
  let (rm, left, run, lastIndex) :=
    (pods.insertionSort fun p q => p.index ≤ q.index).foldl duplicateStep
      (rm, left, [], unknownCompletionIndex)
  appendPodsWithSameIndexForRemovalAndRemaining rm left run lastIndex

theorem Pod.unknown_le_index (p : Pod) : unknownCompletionIndex ≤ p.index := by
  by_cases h : p.index = unknownCompletionIndex
  · exact h.ge
  · have := (Pod.index_ne_unknown_iff p).mp h
    unfold unknownCompletionIndex
    omega

/-- A run handed to `appendPodsWithSameIndexForRemovalAndRemaining` is split between the removed
and the kept; one pod is kept exactly when the index is known and the run is not empty. -/
theorem appendPodsWithSameIndexForRemovalAndRemaining_spec (rm left run : List Pod) (ix : ℤ) :
    ∃ removed kept,
      appendPodsWithSameIndexForRemovalAndRemaining rm left run ix = (rm ++ removed, left ++ kept) ∧
      (removed ++ kept).Perm run ∧
      (kept = [] ∧ (ix = unknownCompletionIndex ∨ run = []) ∨
        ix ≠ unknownCompletionIndex ∧ ∃ p ∈ run, kept = [p]) := by
  unfold appendPodsWithSameIndexForRemovalAndRemaining
  split_ifs with hunknown hone
  · exact ⟨run, [], by simp, by simp, .inl ⟨rfl, .inl hunknown⟩⟩
  · obtain ⟨p, rfl⟩ := List.length_eq_one_iff.mp hone
    exact ⟨[], [p], by simp, by simp, .inr ⟨hunknown, p, List.mem_singleton_self p, rfl⟩⟩
  · set sorted := run.insertionSort fun p q => activePodsLess p q
    have hperm : sorted.Perm run := List.perm_insertionSort _ _
    refine ⟨sorted.dropLast, sorted.getLast?.toList, rfl, ?_, ?_⟩
    · rcases hs : sorted.getLast? with _ | p
      · rw [List.getLast?_eq_none_iff] at hs
        simpa [hs] using hperm
      · rw [Option.toList_some, List.dropLast_append_getLast? p hs]
        exact hperm
    · rcases hs : sorted.getLast? with _ | p
      · rw [List.getLast?_eq_none_iff] at hs
        exact .inl ⟨rfl, .inr (List.perm_nil.mp (hs ▸ hperm).symm)⟩
      · exact .inr ⟨hunknown, p, hperm.subset (List.mem_of_getLast? hs), rfl⟩

/-- What `appendDuplicatedIndexPodsForRemoval`'s loop keeps over the pods seen so far, sorted by
index: the removed, kept and running pods are those pods; the run holds the last index, the kept
pods hold distinct known indexes below it, every index below it that is present, and the removed
ones an index below it or none. -/
structure DuplicateInv (seen rm left run : List Pod) (last : ℤ) : Prop where
  perm : (rm ++ left ++ run).Perm seen
  run_index : ∀ p ∈ run, p.index = last
  rm_index : ∀ p ∈ rm, p.index < last ∨ p.index = unknownCompletionIndex
  left_known : ∀ p ∈ left, 0 ≤ p.index
  left_lt : ∀ p ∈ left, p.index < last
  left_nodup : (left.map Pod.index).Nodup
  left_covers : ∀ q ∈ seen, 0 ≤ q.index → q.index < last → ∃ l ∈ left, l.index = q.index
  le_last : ∀ q ∈ seen, q.index ≤ last
  last_seen : last = unknownCompletionIndex ∨ ∃ q ∈ seen, q.index = last

theorem duplicateInv_nil : DuplicateInv [] [] [] [] unknownCompletionIndex where
  perm := by simp
  run_index := by simp
  rm_index := by simp
  left_known := by simp
  left_lt := by simp
  left_nodup := by simp
  left_covers := by simp
  le_last := by simp
  last_seen := .inl rfl

/-- A pod of the last index is in the run. -/
theorem DuplicateInv.mem_run {seen rm left run : List Pod} {last : ℤ}
    (h : DuplicateInv seen rm left run last) {q : Pod} (hq : q ∈ seen) (hknown : 0 ≤ q.index)
    (hlast : q.index = last) : q ∈ run := by
  have hmem := h.perm.symm.subset hq
  simp only [List.mem_append] at hmem
  rcases hmem with (hrm | hleft) | hrun
  · rcases h.rm_index q hrm with hlt | hunk
    · omega
    · unfold unknownCompletionIndex at hunk
      omega
  · have := h.left_lt q hleft
    omega
  · exact hrun

section Flush

variable {seen rm left run kept : List Pod} {last : ℤ}

/-- The pod a flush keeps, if any, holds the last index, which is known. -/
theorem DuplicateInv.kept_index (h : DuplicateInv seen rm left run last)
    (hkept : kept = [] ∧ (last = unknownCompletionIndex ∨ run = []) ∨
      last ≠ unknownCompletionIndex ∧ ∃ k ∈ run, kept = [k]) :
    ∀ k ∈ kept, k.index = last ∧ 0 ≤ k.index := by
  rcases hkept with ⟨rfl, -⟩ | ⟨hknown, k, hk, rfl⟩
  · simp
  · intro k' hk'
    rw [List.mem_singleton.mp hk']
    have hidx := h.run_index k hk
    exact ⟨hidx, (Pod.index_ne_unknown_iff k).mp (by rw [hidx]; exact hknown)⟩

/-- After a flush the kept pods hold known indexes, each once. -/
theorem DuplicateInv.flush_left (h : DuplicateInv seen rm left run last)
    (hkept : kept = [] ∧ (last = unknownCompletionIndex ∨ run = []) ∨
      last ≠ unknownCompletionIndex ∧ ∃ k ∈ run, kept = [k]) :
    (∀ p ∈ left ++ kept, 0 ≤ p.index) ∧ ((left ++ kept).map Pod.index).Nodup := by
  have hkeptIndex := h.kept_index hkept
  refine ⟨fun p hp => ?_, ?_⟩
  · rcases List.mem_append.mp hp with hleft | hk
    · exact h.left_known p hleft
    · exact (hkeptIndex p hk).2
  · rw [List.map_append, List.nodup_append]
    refine ⟨h.left_nodup, ?_, ?_⟩
    · rcases hkept with ⟨rfl, -⟩ | ⟨-, k, -, rfl⟩ <;> simp
    · simp only [List.mem_map]
      rintro _ ⟨l, hl, rfl⟩ _ ⟨k, hk, rfl⟩
      have := h.left_lt l hl
      have := (hkeptIndex k hk).1
      omega

/-- After a flush every known index seen so far is held by a kept pod. -/
theorem DuplicateInv.flush_covers (h : DuplicateInv seen rm left run last)
    (hkept : kept = [] ∧ (last = unknownCompletionIndex ∨ run = []) ∨
      last ≠ unknownCompletionIndex ∧ ∃ k ∈ run, kept = [k]) :
    ∀ q ∈ seen, 0 ≤ q.index → ∃ l ∈ left ++ kept, l.index = q.index := by
  have hkeptIndex := h.kept_index hkept
  intro q hq hknown
  rcases (h.le_last q hq).lt_or_eq with hbelow | hlast
  · obtain ⟨l, hl, hidx⟩ := h.left_covers q hq hknown hbelow
    exact ⟨l, List.mem_append_left kept hl, hidx⟩
  · -- a pod of the last index is in the run, so the run kept one of them
    have hrun := h.mem_run hq hknown hlast
    rcases hkept with ⟨-, hunk | hnil⟩ | ⟨-, k, -, rfl⟩
    · unfold unknownCompletionIndex at hunk
      omega
    · simp [hnil] at hrun
    · refine ⟨k, by simp, ?_⟩
      rw [(hkeptIndex k (List.mem_singleton_self k)).1, hlast]

end Flush

/-- Flushing the run of the last index into the removed and the kept, then starting a run of a
larger index with `p`. -/
theorem DuplicateInv.flush {seen rm left run removed kept : List Pod} {last : ℤ}
    (h : DuplicateInv seen rm left run last) (hsplit : (removed ++ kept).Perm run)
    (hkept : kept = [] ∧ (last = unknownCompletionIndex ∨ run = []) ∨
      last ≠ unknownCompletionIndex ∧ ∃ k ∈ run, kept = [k])
    {p : Pod} (hp : ∀ q ∈ seen, q.index ≤ p.index) (hgt : last < p.index) :
    DuplicateInv (seen ++ [p]) (rm ++ removed) (left ++ kept) [p] p.index := by
  have hkeptIndex := h.kept_index hkept
  obtain ⟨hleftKnown, hleftNodup⟩ := h.flush_left hkept
  refine ⟨?_, ?_, ?_, hleftKnown, ?_, hleftNodup, ?_, ?_, ?_⟩
  · have hreorder : (rm ++ removed ++ (left ++ kept) ++ [p]).Perm
        (rm ++ left ++ (removed ++ kept) ++ [p]) := by
      simp only [List.append_assoc]
      exact (List.perm_append_comm_assoc removed left (kept ++ [p])).append_left rm
    exact hreorder.trans (((hsplit.append_left _).append_right _).trans (h.perm.append_right _))
  · simp
  · intro q hq
    rcases List.mem_append.mp hq with hrm | hremoved
    · rcases h.rm_index q hrm with hlt | hunk
      · exact .inl (hlt.trans hgt)
      · exact .inr hunk
    · exact .inl (h.run_index q (hsplit.subset (List.mem_append_left kept hremoved)) ▸ hgt)
  · intro q hq
    rcases List.mem_append.mp hq with hleft | hk
    · exact (h.left_lt q hleft).trans hgt
    · exact (hkeptIndex q hk).1 ▸ hgt
  · intro q hq hknown hlt
    rcases List.mem_append.mp hq with hseen | hp'
    · exact h.flush_covers hkept q hseen hknown
    · rw [List.mem_singleton.mp hp'] at hlt
      omega
  · intro q hq
    rcases List.mem_append.mp hq with hseen | hp'
    · exact hp q hseen
    · rw [List.mem_singleton.mp hp']
  · exact .inr ⟨p, by simp, rfl⟩

/-- Extending the run of the last index with `p`. -/
theorem DuplicateInv.extend {seen rm left run : List Pod} {last : ℤ}
    (h : DuplicateInv seen rm left run last) {p : Pod} (hlast : p.index = last) :
    DuplicateInv (seen ++ [p]) rm left (run ++ [p]) last := by
  refine ⟨?_, ?_, h.rm_index, h.left_known, h.left_lt, h.left_nodup, ?_, ?_, ?_⟩
  · simpa only [List.append_assoc] using h.perm.append_right [p]
  · intro q hq
    rcases List.mem_append.mp hq with hrun | hp'
    · exact h.run_index q hrun
    · rw [List.mem_singleton.mp hp', hlast]
  · intro q hq hknown hlt
    rcases List.mem_append.mp hq with hseen | hp'
    · exact h.left_covers q hseen hknown hlt
    · rw [List.mem_singleton.mp hp'] at hlt
      omega
  · intro q hq
    rcases List.mem_append.mp hq with hseen | hp'
    · exact h.le_last q hseen
    · rw [List.mem_singleton.mp hp', hlast]
  · rcases h.last_seen with hunk | ⟨q, hq, hidx⟩
    · exact .inl hunk
    · exact .inr ⟨q, List.mem_append_left _ hq, hidx⟩

/-- The loop keeps `DuplicateInv` over a pod whose index is at least every index seen. -/
theorem DuplicateInv.step {seen rm left run : List Pod} {last : ℤ}
    (h : DuplicateInv seen rm left run last) {p : Pod} (hp : ∀ q ∈ seen, q.index ≤ p.index) :
    let acc := duplicateStep (rm, left, run, last) p
    DuplicateInv (seen ++ [p]) acc.1 acc.2.1 acc.2.2.1 acc.2.2.2 := by
  unfold duplicateStep
  dsimp only
  split_ifs with hnew
  · obtain ⟨removed, kept, hflush, hsplit, hkept⟩ :=
      appendPodsWithSameIndexForRemovalAndRemaining_spec rm left run last
    rw [hflush]
    have hge : last ≤ p.index := by
      rcases h.last_seen with hunk | ⟨q, hq, hidx⟩
      · exact hunk ▸ Pod.unknown_le_index p
      · exact hidx ▸ hp q hq
    exact h.flush hsplit hkept hp (lt_of_le_of_ne hge (Ne.symm hnew))
  · exact h.extend (not_not.mp hnew)

/-- The loop keeps `DuplicateInv` over pods sorted by index. -/
theorem DuplicateInv.foldl (pods : List Pod) :
    ∀ {seen rm left run : List Pod} {last : ℤ}, DuplicateInv seen rm left run last →
      (seen ++ pods).Pairwise (fun p q => p.index ≤ q.index) →
      let acc := pods.foldl duplicateStep (rm, left, run, last)
      DuplicateInv (seen ++ pods) acc.1 acc.2.1 acc.2.2.1 acc.2.2.2 := by
  induction pods with
  | nil =>
    intro seen rm left run last h _
    simpa using h
  | cons p pods ih =>
    intro seen rm left run last h hsorted
    have hp : ∀ q ∈ seen, q.index ≤ p.index := fun q hq =>
      (List.pairwise_append.mp hsorted).2.2 q hq p List.mem_cons_self
    rw [List.append_cons] at hsorted ⊢
    exact ih (h.step hp) hsorted

theorem pairwise_insertionSort_index (pods : List Pod) :
    (pods.insertionSort fun p q => p.index ≤ q.index).Pairwise fun p q => p.index ≤ q.index := by
  have : Std.Total (fun p q : Pod => p.index ≤ q.index) := ⟨fun p q => le_total p.index q.index⟩
  have : IsTrans Pod (fun p q => p.index ≤ q.index) := ⟨fun _ _ _ => le_trans⟩
  exact List.pairwise_insertionSort _ _

/-- A split of `pods` into the removed `rm` and the kept `left` where the kept pods hold each index
present once, and every pod without an index is removed. -/
structure OnePerIndex (pods rm left : List Pod) : Prop where
  perm : (rm ++ left).Perm pods
  unknown_removed : ∀ p ∈ pods, p.index = unknownCompletionIndex → p ∈ rm
  left_known : ∀ p ∈ left, 0 ≤ p.index
  left_nodup : (left.map Pod.index).Nodup
  left_covers : ∀ p ∈ pods, 0 ≤ p.index → ∃ l ∈ left, l.index = p.index

theorem OnePerIndex.of_perm {pods pods' rm left : List Pod} (h : OnePerIndex pods rm left)
    (hperm : pods.Perm pods') : OnePerIndex pods' rm left where
  perm := h.perm.trans hperm
  unknown_removed p hp := h.unknown_removed p (hperm.symm.subset hp)
  left_known := h.left_known
  left_nodup := h.left_nodup
  left_covers p hp := h.left_covers p (hperm.symm.subset hp)

/-- The last flush of `appendDuplicatedIndexPodsForRemoval` turns the loop's invariant into the
split. -/
theorem DuplicateInv.onePerIndex {pods rm left run : List Pod} {last : ℤ}
    (h : DuplicateInv pods rm left run last) :
    OnePerIndex pods (appendPodsWithSameIndexForRemovalAndRemaining rm left run last).1
      (appendPodsWithSameIndexForRemovalAndRemaining rm left run last).2 := by
  obtain ⟨removed, kept, hflush, hsplit, hkept⟩ :=
    appendPodsWithSameIndexForRemovalAndRemaining_spec rm left run last
  rw [hflush]
  obtain ⟨hleftKnown, hleftNodup⟩ := h.flush_left hkept
  refine ⟨?_, ?_, hleftKnown, hleftNodup, h.flush_covers hkept⟩
  · have hreorder : (rm ++ removed ++ (left ++ kept)).Perm (rm ++ left ++ (removed ++ kept)) := by
      simp only [List.append_assoc]
      exact (List.perm_append_comm_assoc removed left kept).append_left rm
    exact hreorder.trans ((hsplit.append_left _).trans h.perm)
  · intro p hp hunknown
    have hmem := h.perm.symm.subset hp
    simp only [List.mem_append] at hmem
    rcases hmem with (hrm | hleft) | hrun
    · exact List.mem_append_left removed hrm
    · have := h.left_known p hleft
      unfold unknownCompletionIndex at hunknown
      omega
    · -- a pod without an index in the run makes the run's index unknown, so the run is removed
      have hlast : last = unknownCompletionIndex := (h.run_index p hrun).symm.trans hunknown
      rcases hkept with ⟨rfl, -⟩ | ⟨hknown, -⟩
      · have hremoved : p ∈ removed := by simpa using hsplit.symm.subset hrun
        exact List.mem_append_right rm hremoved
      · exact absurd hlast hknown

/-- `appendDuplicatedIndexPodsForRemoval` keeps one pod of each index present and removes the
others, and every pod without an index. -/
theorem appendDuplicatedIndexPodsForRemoval_spec (pods : List Pod) :
    OnePerIndex pods (appendDuplicatedIndexPodsForRemoval [] [] pods).1
      (appendDuplicatedIndexPodsForRemoval [] [] pods).2 := by
  set sorted := pods.insertionSort fun p q => p.index ≤ q.index
  have hperm : sorted.Perm pods := List.perm_insertionSort _ _
  have hinv := DuplicateInv.foldl sorted duplicateInv_nil (by simpa using pairwise_insertionSort_index pods)
  rw [List.nil_append] at hinv
  exact hinv.onePerIndex.of_perm hperm

/-! ## Succeeded indexes -/

/-- `strconv.Itoa`, in decimal digits. -/
def itoa (n : ℤ) : List Char :=
  if n < 0 then '-' :: Nat.toDigits 10 n.natAbs else Nat.toDigits 10 n.toNat

/-- `addSingleOrRangeStr(builder, first, last)`, on the builder's characters. -/
def addSingleOrRangeStr (builder : List Char) (first last : ℤ) : List Char :=
  let builder := if builder.length > 0 then builder ++ [','] else builder
  let builder := builder ++ itoa first
  if last > first then
    (if last = first + 1 then builder ++ [','] else builder ++ ['-']) ++ itoa last
  else builder

/-- `math.MinInt32`, the loop's mark for no succeeded index yet. -/
def minInt32 : ℤ := -2147483648

/-- The variables of `calculateSucceededIndexes`' loop. -/
structure SucceededScan where
  result : List Char
  lastSucceeded : ℤ
  count : Int32
  firstSucceeded : ℤ

/-- One pod of `calculateSucceededIndexes`' loop. -/
def succeededStep (s : SucceededScan) (p : Pod) : SucceededScan :=
  let ix := p.index
  if ix = unknownCompletionIndex then s
  else if p.phase = .succeeded then
    if s.firstSucceeded = minInt32 then { s with firstSucceeded := ix, lastSucceeded := ix }
    -- `lastSucceeded+1` is an `int` sum, which wraps at `math.MaxInt64`
    else if ix > Go.toInt64 (s.lastSucceeded + 1) then
      { result := addSingleOrRangeStr s.result s.firstSucceeded s.lastSucceeded
        count := s.count + Int32.ofInt (s.lastSucceeded - s.firstSucceeded + 1)
        firstSucceeded := ix
        lastSucceeded := ix }
    else { s with lastSucceeded := ix }
  else s

/-- `calculateSucceededIndexes(pods)`: the text of the succeeded indexes and their number. -/
def calculateSucceededIndexes (pods : List Pod) : List Char × Int32 :=
  let s := (pods.insertionSort fun p q => p.index ≤ q.index).foldl succeededStep
    ⟨[], 0, 0, minInt32⟩
  if s.firstSucceeded ≠ minInt32 then
    (addSingleOrRangeStr s.result s.firstSucceeded s.lastSucceeded,
      s.count + Int32.ofInt (s.lastSucceeded - s.firstSucceeded + 1))
  else (s.result, s.count)

/-! ### The text of maximal runs -/

/-- The text of a run `first..last` of consecutive indexes: one or two indexes one by one, three
or more as `first-last`. -/
def runText (first last : ℤ) : List Char :=
  if last = first then itoa first
  else if last = first + 1 then itoa first ++ ',' :: itoa last
  else itoa first ++ '-' :: itoa last

/-- The texts of runs, separated by commas. -/
def runsText (runs : List (ℤ × ℤ)) : List Char :=
  [','].intercalate (runs.map fun r => runText r.1 r.2)

/-- The number of indexes in runs. -/
def runsSize (runs : List (ℤ × ℤ)) : ℤ := (runs.map fun r => r.2 - r.1 + 1).sum

/-- `runs` cuts the ascending list `xs` into its maximal runs of consecutive integers. -/
structure MaximalRuns (xs : List ℤ) (runs : List (ℤ × ℤ)) : Prop where
  cover : runs.flatMap (fun r => intRange r.1 (r.2 + 1)) = xs
  le : ∀ r ∈ runs, r.1 ≤ r.2
  gap : runs.IsChain fun r r' => r.2 + 1 < r'.1

theorem List.intercalate_append_singleton {α : Type*} (ys x : List α) :
    ∀ zs : List (List α),
      ys.intercalate (zs ++ [x]) = if zs = [] then x else ys.intercalate zs ++ ys ++ x
  | [] => by simp
  | [z] => by simp
  | z :: z' :: zs => by
    rw [List.cons_append, List.cons_append, List.intercalate_cons_cons, ← List.cons_append,
      List.intercalate_append_singleton ys x (z' :: zs), if_neg (List.cons_ne_nil _ _),
      if_neg (List.cons_ne_nil _ _), List.intercalate_cons_cons]
    simp

theorem itoa_ne_nil (n : ℤ) : itoa n ≠ [] := by
  unfold itoa
  split <;> simp [Nat.toDigits_ne_nil]

theorem runsText_eq_nil_iff {runs : List (ℤ × ℤ)} : runsText runs = [] ↔ runs = [] := by
  cases runs with
  | nil => simp [runsText]
  | cons r runs =>
    have hr : runText r.1 r.2 ≠ [] := by
      unfold runText
      split_ifs <;> simp [itoa_ne_nil]
    obtain ⟨c, cs, hc⟩ := List.exists_cons_of_ne_nil hr
    simp [runsText, hc]

/-- `addSingleOrRangeStr` writes a comma after text already there, then the run's text. -/
theorem addSingleOrRangeStr_eq (builder : List Char) {first last : ℤ} (hle : first ≤ last) :
    addSingleOrRangeStr builder first last =
      (if builder.length > 0 then builder ++ [','] else builder) ++ runText first last := by
  unfold addSingleOrRangeStr runText
  by_cases heq : last = first
  · simp [heq]
  · rw [if_pos (by omega), if_neg heq]
    split <;> simp

/-- `addSingleOrRangeStr` writes one more run after the text of the runs before it. -/
theorem addSingleOrRangeStr_runsText (runs : List (ℤ × ℤ)) {first last : ℤ}
    (hle : first ≤ last) :
    addSingleOrRangeStr (runsText runs) first last = runsText (runs ++ [(first, last)]) := by
  rw [addSingleOrRangeStr_eq _ hle]
  by_cases hnil : runs = []
  · simp [hnil, runsText]
  · have hpos : (runsText runs).length > 0 :=
      List.length_pos_iff.mpr (runsText_eq_nil_iff.not.mpr hnil)
    rw [if_pos hpos]
    unfold runsText
    rw [List.map_append, List.map_singleton, List.intercalate_append_singleton,
      if_neg (by simpa using hnil)]

theorem MaximalRuns.nil : MaximalRuns [] [] := ⟨rfl, by simp, .nil⟩

theorem MaximalRuns.single (x : ℤ) : MaximalRuns [x] [(x, x)] :=
  ⟨by simp [intRange_succ], by simp, .singleton _⟩

section Runs

variable {xs : List ℤ} {runs : List (ℤ × ℤ)} {first last : ℤ}

theorem MaximalRuns.cover_last (h : MaximalRuns xs (runs ++ [(first, last)])) :
    xs = runs.flatMap (fun r => intRange r.1 (r.2 + 1)) ++ intRange first (last + 1) := by
  rw [← h.cover]
  simp

theorem MaximalRuns.first_le_last (h : MaximalRuns xs (runs ++ [(first, last)])) :
    first ≤ last :=
  h.le (first, last) (by simp)

theorem MaximalRuns.last_mem (h : MaximalRuns xs (runs ++ [(first, last)])) : last ∈ xs := by
  rw [h.cover_last]
  exact List.mem_append_right _ (mem_intRange.mpr ⟨h.first_le_last, by omega⟩)

/-- The next integer extends the last run. -/
theorem MaximalRuns.extend (h : MaximalRuns xs (runs ++ [(first, last)])) :
    MaximalRuns (xs ++ [last + 1]) (runs ++ [(first, last + 1)]) where
  cover := by
    have hle := h.first_le_last
    rw [h.cover_last, List.flatMap_append, List.flatMap_singleton, List.append_assoc,
      ← intRange_succ (last + 1), intRange_append (by omega) (by omega)]
  le := by
    intro r hr
    rcases List.mem_append.mp hr with hr | hr
    · exact h.le r (List.mem_append_left _ hr)
    · rw [List.mem_singleton.mp hr]
      have := h.first_le_last
      dsimp only
      omega
  gap := by
    have hg := List.isChain_append.mp h.gap
    refine List.isChain_append.mpr ⟨hg.1, .singleton _, fun x hx y hy => ?_⟩
    simp only [List.head?_cons, Option.mem_def, Option.some.injEq] at hy
    subst hy
    exact hg.2.2 x hx (first, last) rfl

/-- An integer past the next one starts a new run. -/
theorem MaximalRuns.append_run (h : MaximalRuns xs (runs ++ [(first, last)])) {x : ℤ}
    (hgap : last + 1 < x) :
    MaximalRuns (xs ++ [x]) (runs ++ [(first, last)] ++ [(x, x)]) where
  cover := by rw [List.flatMap_append, h.cover, List.flatMap_singleton, intRange_succ]
  le := by
    intro r hr
    rcases List.mem_append.mp hr with hr | hr
    · exact h.le r hr
    · rw [List.mem_singleton.mp hr]
  gap := by
    refine List.isChain_append.mpr ⟨h.gap, .singleton _, fun y hy z hz => ?_⟩
    simp only [List.getLast?_append, List.getLast?_singleton, Option.some_or, Option.mem_def,
      Option.some.injEq, List.head?_cons] at hy hz
    subst hy hz
    exact hgap

theorem MaximalRuns.runsSize_eq (h : MaximalRuns xs runs) : runsSize runs = xs.length := by
  rw [← h.cover]
  have hle := h.le
  clear h
  induction runs with
  | nil => rfl
  | cons r runs ih =>
    have hr := hle r List.mem_cons_self
    simp only [runsSize, List.map_cons, List.sum_cons, List.flatMap_cons, List.length_append] at ih ⊢
    rw [ih fun r' hr' => hle r' (List.mem_cons_of_mem _ hr')]
    simp only [intRange, List.length_map, List.length_range]
    omega

end Runs

/-! ### The loop -/

/-- The succeeded indexes after one more pod, in the order the loop meets them, each once. -/
def addSucceeded (xs : List ℤ) (p : Pod) : List ℤ :=
  if p.index ≠ unknownCompletionIndex ∧ p.phase = .succeeded ∧ p.index ∉ xs then xs ++ [p.index]
  else xs

/-- The loop's variables after pods whose succeeded indexes, each once in the order met, are `xs`:
before the first, the start; after it, the runs before the current one written and counted, the
current one `firstSucceeded..lastSucceeded`, and `lastSucceeded` the largest index. -/
def ScanInv (xs : List ℤ) (s : SucceededScan) : Prop :=
  (xs = [] ∧ s = ⟨[], 0, 0, minInt32⟩) ∨
    ∃ runs, MaximalRuns xs (runs ++ [(s.firstSucceeded, s.lastSucceeded)]) ∧
      0 ≤ s.firstSucceeded ∧ (∀ x ∈ xs, x ≤ s.lastSucceeded) ∧
      s.result = runsText runs ∧ s.count = Int32.ofInt (runsSize runs)

theorem runsSize_append_singleton (runs : List (ℤ × ℤ)) (first last : ℤ) :
    runsSize (runs ++ [(first, last)]) = runsSize runs + (last - first + 1) := by
  simp [runsSize]

/-- One pod of the loop, met in ascending order of index, keeps `ScanInv`, below the index at
which `lastSucceeded+1` wraps. -/
theorem ScanInv.step {xs : List ℤ} {s : SucceededScan} (h : ScanInv xs s) {p : Pod}
    (hle : ∀ x ∈ xs, x ≤ p.index) (hmax : p.phase = .succeeded → p.index < 2 ^ 63 - 1) :
    ScanInv (addSucceeded xs p) (succeededStep s p) := by
  by_cases hcount : p.index ≠ unknownCompletionIndex ∧ p.phase = .succeeded
  swap
  · -- the pod is skipped, and its index is not added
    have hskip : succeededStep s p = s := by
      unfold succeededStep
      by_cases hk : p.index = unknownCompletionIndex
      · rw [if_pos hk]
      · rw [if_neg hk, if_neg fun hs => hcount ⟨hk, hs⟩]
    have hxs : addSucceeded xs p = xs := if_neg fun hc => hcount ⟨hc.1, hc.2.1⟩
    rw [hskip, hxs]
    exact h
  obtain ⟨hknown, hsucc⟩ := hcount
  have hix : 0 ≤ p.index := (Pod.index_ne_unknown_iff p).mp hknown
  have hbound := hmax hsucc
  rcases h with ⟨rfl, rfl⟩ | ⟨runs, hruns, hfirst, hlast, hresult, hcnt⟩
  · -- the first succeeded index starts the first run
    have hstep : succeededStep ⟨[], 0, 0, minInt32⟩ p = ⟨[], p.index, 0, p.index⟩ := by
      simp [succeededStep, hknown, hsucc]
    have hxs : addSucceeded [] p = [p.index] := by simp [addSucceeded, hknown, hsucc]
    rw [hstep, hxs]
    exact .inr ⟨[], MaximalRuns.single p.index, hix, by simp, rfl, rfl⟩
  have hne : s.firstSucceeded ≠ minInt32 := by unfold minInt32; omega
  have hl : s.lastSucceeded ≤ p.index := hle _ hruns.last_mem
  have hwrap : Go.toInt64 (s.lastSucceeded + 1) = s.lastSucceeded + 1 :=
    Go.toInt64_of_lt (by have := hruns.first_le_last; omega) (by omega)
  by_cases hgap : p.index > s.lastSucceeded + 1
  · -- a gap: the current run is written and counted, and a new one starts
    have hstep : succeededStep s p = ⟨addSingleOrRangeStr s.result s.firstSucceeded s.lastSucceeded,
        p.index, s.count + Int32.ofInt (s.lastSucceeded - s.firstSucceeded + 1), p.index⟩ := by
      simp only [succeededStep, if_neg hknown, if_pos hsucc, if_neg hne, hwrap, if_pos hgap]
    have hnotin : p.index ∉ xs := fun hm => by have := hlast _ hm; omega
    have hxs : addSucceeded xs p = xs ++ [p.index] := by
      simp [addSucceeded, hknown, hsucc, hnotin]
    rw [hstep, hxs]
    refine .inr ⟨runs ++ [(s.firstSucceeded, s.lastSucceeded)], hruns.append_run hgap, hix,
      fun x hx => ?_, ?_, ?_⟩
    · rcases List.mem_append.mp hx with hx | hx
      · exact (hlast x hx).trans hl
      · exact (List.mem_singleton.mp hx).le
    · show addSingleOrRangeStr s.result s.firstSucceeded s.lastSucceeded =
        runsText (runs ++ [(s.firstSucceeded, s.lastSucceeded)])
      rw [hresult, addSingleOrRangeStr_runsText runs hruns.first_le_last]
    · show s.count + Int32.ofInt (s.lastSucceeded - s.firstSucceeded + 1) =
        Int32.ofInt (runsSize (runs ++ [(s.firstSucceeded, s.lastSucceeded)]))
      rw [hcnt, runsSize_append_singleton, ← Int32.ofInt_add]
  · -- no gap: the index repeats the last one or extends the current run
    have hstep : succeededStep s p = { s with lastSucceeded := p.index } := by
      simp only [succeededStep, if_neg hknown, if_pos hsucc, if_neg hne, hwrap, if_neg hgap]
    rw [hstep]
    rcases (show p.index = s.lastSucceeded ∨ p.index = s.lastSucceeded + 1 by omega) with
      hrep | hnext
    · have hxs : addSucceeded xs p = xs := by
        simp [addSucceeded, hrep ▸ hruns.last_mem]
      rw [hxs, hrep]
      exact .inr ⟨runs, hruns, hfirst, hlast, hresult, hcnt⟩
    · have hnotin : p.index ∉ xs := fun hm => by have := hlast _ hm; omega
      have hxs : addSucceeded xs p = xs ++ [p.index] := by
        simp [addSucceeded, hknown, hsucc, hnotin]
      rw [hxs, hnext]
      refine .inr ⟨runs, hruns.extend, hfirst, fun x hx => ?_, hresult, hcnt⟩
      show x ≤ s.lastSucceeded + 1
      rcases List.mem_append.mp hx with hx | hx
      · have := hlast x hx
        omega
      · exact (List.mem_singleton.mp hx).le

theorem mem_foldl_addSucceeded (x : ℤ) : ∀ (pods : List Pod) (xs : List ℤ),
    x ∈ pods.foldl addSucceeded xs ↔ x ∈ xs ∨
      ∃ p ∈ pods, p.index ≠ unknownCompletionIndex ∧ p.phase = .succeeded ∧ p.index = x
  | [], xs => by simp
  | p :: pods, xs => by
    rw [List.foldl_cons, mem_foldl_addSucceeded x pods]
    have hadd : x ∈ addSucceeded xs p ↔
        x ∈ xs ∨ (p.index ≠ unknownCompletionIndex ∧ p.phase = .succeeded ∧ p.index = x) := by
      unfold addSucceeded
      split
      · rename_i hc
        simp only [List.mem_append, List.mem_singleton]
        constructor
        · rintro (hx | rfl)
          · exact .inl hx
          · exact .inr ⟨hc.1, hc.2.1, rfl⟩
        · rintro (hx | ⟨-, -, rfl⟩)
          · exact .inl hx
          · exact .inr rfl
      · rename_i hc
        constructor
        · exact .inl
        · rintro (hx | ⟨hk, hs, rfl⟩)
          · exact hx
          · by_contra hnot
            exact hc ⟨hk, hs, hnot⟩
    rw [hadd]
    simp only [List.mem_cons, exists_eq_or_imp]
    tauto

/-- The loop over pods in ascending order of index keeps `ScanInv`, and the indexes it meets stay
strictly ascending. -/
theorem foldl_succeededStep_scanInv : ∀ (pods : List Pod) (xs : List ℤ) (s : SucceededScan),
    pods.Pairwise (fun p q => p.index ≤ q.index) →
    (∀ p ∈ pods, p.phase = .succeeded → p.index < 2 ^ 63 - 1) →
    ScanInv xs s → xs.Pairwise (· < ·) → (∀ x ∈ xs, ∀ p ∈ pods, x ≤ p.index) →
    ScanInv (pods.foldl addSucceeded xs) (pods.foldl succeededStep s) ∧
      (pods.foldl addSucceeded xs).Pairwise (· < ·)
  | [], _, _, _, _, hinv, hasc, _ => ⟨hinv, hasc⟩
  | p :: pods, xs, s, hsorted, hmax, hinv, hasc, hle => by
    have hsorted' := List.pairwise_cons.mp hsorted
    have hlep : ∀ x ∈ xs, x ≤ p.index := fun x hx => hle x hx p List.mem_cons_self
    refine foldl_succeededStep_scanInv pods _ _ hsorted'.2
      (fun q hq => hmax q (List.mem_cons_of_mem _ hq))
      (hinv.step hlep (hmax p List.mem_cons_self)) ?_ ?_
    · -- an index is added only when it is past every index met
      unfold addSucceeded
      split
      · rename_i hc
        refine List.pairwise_append.mpr ⟨hasc, List.pairwise_singleton _ _, fun x hx y hy => ?_⟩
        rw [List.mem_singleton.mp hy]
        exact lt_of_le_of_ne (hlep x hx) fun heq => hc.2.2 (heq ▸ hx)
      · exact hasc
    · intro x hx q hq
      unfold addSucceeded at hx
      split at hx
      · rcases List.mem_append.mp hx with hx | hx
        · exact hle x hx q (List.mem_cons_of_mem _ hq)
        · exact (List.mem_singleton.mp hx) ▸ hsorted'.1 q hq
      · exact hle x hx q (List.mem_cons_of_mem _ hq)

/-- **What `calculateSucceededIndexes` returns.** Where no succeeded pod has index
`math.MaxInt64`, the text lists the succeeded pods' indexes `xs`, ascending and each once, by
their maximal runs of consecutive indexes, one or two indexes one by one and three or more as
`first-last`, and the count is the number of those indexes. -/
theorem calculateSucceededIndexes_spec (pods : List Pod)
    (hmax : ∀ p ∈ pods, p.phase = .succeeded → p.index < 2 ^ 63 - 1) :
    ∃ xs runs, xs.Pairwise (· < ·) ∧
      (∀ x, x ∈ xs ↔
        ∃ p ∈ pods, p.index ≠ unknownCompletionIndex ∧ p.phase = .succeeded ∧ p.index = x) ∧
      MaximalRuns xs runs ∧ calculateSucceededIndexes pods = (runsText runs, Int32.ofNat xs.length) := by
  have hperm : (pods.insertionSort fun p q => p.index ≤ q.index).Perm pods :=
    List.perm_insertionSort _ _
  obtain ⟨hinv, hasc⟩ := foldl_succeededStep_scanInv
    (pods.insertionSort fun p q => p.index ≤ q.index) [] ⟨[], 0, 0, minInt32⟩
    (pairwise_insertionSort_index pods) (fun p hp => hmax p (hperm.subset hp))
    (.inl ⟨rfl, rfl⟩) List.Pairwise.nil (by simp)
  have hmem : ∀ x, x ∈ (pods.insertionSort fun p q => p.index ≤ q.index).foldl addSucceeded [] ↔
      ∃ p ∈ pods, p.index ≠ unknownCompletionIndex ∧ p.phase = .succeeded ∧ p.index = x := by
    intro x
    rw [mem_foldl_addSucceeded]
    simp only [List.not_mem_nil, false_or]
    exact exists_congr fun p => and_congr_left' hperm.mem_iff
  unfold calculateSucceededIndexes
  dsimp only
  generalize (pods.insertionSort fun p q => p.index ≤ q.index).foldl succeededStep
    ⟨[], 0, 0, minInt32⟩ = S at hinv
  rcases hinv with ⟨hnil, rfl⟩ | ⟨runs, hruns, hfirst, -, hresult, hcnt⟩
  · -- no succeeded index: the empty text and zero
    refine ⟨_, [], hasc, hmem, by rw [hnil]; exact MaximalRuns.nil, ?_⟩
    rw [hnil]
    simp [runsText]
  · refine ⟨_, _, hasc, hmem, hruns, ?_⟩
    rw [if_pos (by unfold minInt32; omega), hresult, hcnt,
      addSingleOrRangeStr_runsText runs hruns.first_le_last, ← Int32.ofInt_add,
      ← runsSize_append_singleton, hruns.runsSize_eq]
    rfl

/-- A succeeded pod of completion index `value`. -/
def succeededAt (name value : String) : Pod :=
  ⟨name, .succeeded, false, some value, "", false, none, 0, some 0⟩

/-- **The last index is written twice**: two succeeded pods of index `math.MaxInt64`. The second
is compared with `lastSucceeded+1`, which wraps to `math.MinInt64`, so it starts a new run of the
same index: the text lists it twice and the count is `2`. -/
theorem calculateSucceededIndexes_repeats_maxInt64 :
    (succeededAt "a" "9223372036854775807").index = 2 ^ 63 - 1 ∧
      calculateSucceededIndexes [succeededAt "a" "9223372036854775807",
        succeededAt "b" "9223372036854775807"] =
        ("9223372036854775807,9223372036854775807".toList, 2) := by
  decide

end Kubernetes.JobController
