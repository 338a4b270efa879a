import Mathlib
import Kubernetes.Job.Indexed

/-!
# `manageJob` of the Job controller

`pkg/controller/job/job_controller.go`. One call of `manageJob` deletes the active pods a Job has
too many of (and, for an Indexed Job, those that repeat an index or hold none), then creates the
pods it lacks in batches of doubling size, and records in the controller's expectations the
deletions and creations it waits to observe.

* `slowStartBatches_eq`: the batch loop makes some create calls and skips the rest.
* `manageJob_creationExpectations`: after a call that creates pods, the creations expected are
  those asked for, less the failed and the skipped calls; no deletion is expected, since
  `ExpectCreations` replaces the record the deletions set.
* `activePodsForRemoval_kept` and `manageJob_created_indexed`: for an Indexed Job, the active pods
  not deleted hold distinct indexes, and the pods created take pending indexes.

The controller's calls to the API server run in goroutines; each call's outcome is a function of
the call (`deletePod` of the pod, `create` of the call's rank), and the goroutines of one batch
are taken in the order they are started, which is one of the orders Go may run them in: their
effects on the expectations, on `active` and on `errCh` commute, except which error
`errorFromChannel` returns first. The expectations are the Job key's record, `none` where there
is none.
-/

namespace Kubernetes.JobController

/-- A `batch.Job`, what `manageJob` reads of it: `indexed` is `isIndexedJob`, `suspended` is
`jobSuspended`. -/
structure Job where
  parallelism : ℤ
  completions : Option ℤ
  indexed : Bool
  suspended : Bool

/-- The outcome of a `DeletePod` call. -/
inductive DeleteOutcome
  | ok
  | notFound
  | failed (err : String)

/-- The outcome of a `CreatePodsWithControllerRef` call; `namespaceTerminating` is an error with
the `NamespaceTerminatingCause` cause. -/
inductive CreateOutcome
  | ok
  | namespaceTerminating
  | failed (err : String)

/-- A failure that `manageJob` counts: the namespace terminating is ignored. -/
def CreateOutcome.isFailed : CreateOutcome → Bool
  | .failed _ => true
  | _ => false

/-! ## Expectations -/

/-- `ControlleeExpectations`: the creations and deletions still to be observed. -/
structure ControlleeExpectations where
  add : ℤ
  del : ℤ
  deriving DecidableEq

/-- `SetExpectations`: a new record replaces the key's. -/
def setExpectations (add del : ℤ) : Option ControlleeExpectations :=
  some ⟨add, del⟩

/-- `ExpectCreations`. -/
def expectCreations (adds : ℤ) : Option ControlleeExpectations :=
  setExpectations adds 0

/-- `ExpectDeletions`. -/
def expectDeletions (dels : ℤ) : Option ControlleeExpectations :=
  setExpectations 0 dels

/-- `LowerExpectations`: lowers the key's record, where there is one. -/
def lowerExpectations (exp : Option ControlleeExpectations) (add del : ℤ) :
    Option ControlleeExpectations :=
  exp.map fun e => ⟨e.add - add, e.del - del⟩

/-- `CreationObserved`. -/
def creationObserved (exp : Option ControlleeExpectations) : Option ControlleeExpectations :=
  lowerExpectations exp 1 0

/-- `DeletionObserved`. -/
def deletionObserved (exp : Option ControlleeExpectations) : Option ControlleeExpectations :=
  lowerExpectations exp 0 1

@[simp]
theorem lowerExpectations_zero (exp : Option ControlleeExpectations) :
    lowerExpectations exp 0 0 = exp := by
  cases exp <;> simp [lowerExpectations]

theorem lowerExpectations_lowerExpectations (exp : Option ControlleeExpectations)
    (add del add' del' : ℤ) :
    lowerExpectations (lowerExpectations exp add del) add' del' =
      lowerExpectations exp (add + add') (del + del') := by
  cases exp with
  | none => rfl
  | some e =>
    simp only [lowerExpectations, Option.map_some, Option.some.injEq, ControlleeExpectations.mk.injEq]
    constructor <;> ring

theorem creationObserved_iterate (exp : Option ControlleeExpectations) (n : ℕ) :
    creationObserved^[n] exp = lowerExpectations exp n 0 := by
  induction n generalizing exp with
  | zero => simp
  | succ n ih =>
    rw [Function.iterate_succ_apply, ih, creationObserved, lowerExpectations_lowerExpectations]
    push_cast
    ring_nf

/-! ## Deletions -/

/-- `activePodsForRemoval`: for an Indexed Job the pods that repeat an index or hold none, then,
up to `rmAtLeast`, the first of the others in the `ActivePods` order. `rmAtLeast` is at most the
number of pods, so the slice is `take`. -/
def activePodsForRemoval (job : Job) (pods : List Pod) (rmAtLeast : ℤ) : List Pod :=
  let (rm, left) := if job.indexed then appendDuplicatedIndexPodsForRemoval [] [] pods else ([], pods)
  if (rm.length : ℤ) < rmAtLeast then
    rm ++ (left.insertionSort fun p q => activePodsLess p q).take (rmAtLeast - rm.length).toNat
  else rm

/-- For an Indexed Job, the pods `activePodsForRemoval` does not return hold distinct known
indexes. -/
theorem activePodsForRemoval_kept {job : Job} (hindexed : job.indexed = true) (pods : List Pod)
    (rmAtLeast : ℤ) :
    ∃ kept, (activePodsForRemoval job pods rmAtLeast ++ kept).Perm pods ∧
      (kept.map Pod.index).Nodup ∧ ∀ p ∈ kept, 0 ≤ p.index := by
  have hsplit := appendDuplicatedIndexPodsForRemoval_spec pods
  unfold activePodsForRemoval
  simp only [hindexed, if_true]
  generalize appendDuplicatedIndexPodsForRemoval [] [] pods = split at hsplit ⊢
  obtain ⟨rm, left⟩ := split
  dsimp only at hsplit ⊢
  split_ifs with hlt
  · -- the first of the kept pods in the `ActivePods` order are removed too
    set sorted := left.insertionSort fun p q => activePodsLess p q
    have hsorted : sorted.Perm left := List.perm_insertionSort _ _
    refine ⟨sorted.drop (rmAtLeast - rm.length).toNat, ?_, ?_, ?_⟩
    · rw [List.append_assoc, List.take_append_drop]
      exact (hsorted.append_left rm).trans hsplit.perm
    · exact ((hsorted.map Pod.index).nodup_iff.mpr hsplit.left_nodup).sublist
        ((List.drop_sublist _ _).map _)
    · exact fun p hp => hsplit.left_known p (hsorted.subset (List.mem_of_mem_drop hp))
  · exact ⟨left, hsplit.perm, hsplit.left_nodup, hsplit.left_known⟩

/-- One `DeletePod` call of `deleteJobPods` on the deletions counted, the first error and the
expectations: a failed call lowers the expected deletions where the key is set, and one that
failed other than by `NotFound` is not counted. -/
def deleteStep (deletePod : Pod → DeleteOutcome) (jobKey : String)
    (acc : ℤ × Option String × Option ControlleeExpectations) (pod : Pod) :
    ℤ × Option String × Option ControlleeExpectations :=
  let observed := if jobKey ≠ "" then deletionObserved acc.2.2 else acc.2.2
  match deletePod pod with
  | .ok => acc
  | .notFound => (acc.1, acc.2.1, observed)
  | .failed err => (acc.1 - 1, acc.2.1.or (some err), observed)

/-- `deleteJobPods`: the number of pods deleted, the first error and the expectations. -/
def deleteJobPods (deletePod : Pod → DeleteOutcome) (jobKey : String) (pods : List Pod)
    (exp : Option ControlleeExpectations) : ℤ × Option String × Option ControlleeExpectations :=
  pods.foldl (deleteStep deletePod jobKey) (pods.length, none, exp)

/-! ## Creations -/

/-- What `manageJob`'s creations change: the completion index of every create call so far (the
unknown index where the Job is not Indexed), the errors sent on `errCh`, the expectations,
`active`, and the indexes still to add. -/
structure CreateState where
  calls : List ℤ
  errors : List String
  expectations : Option ControlleeExpectations
  active : ℤ
  indexesToAdd : Option (List ℤ)

/-- `completionIndex = indexesToAdd[0]; indexesToAdd = indexesToAdd[1:]` where there are indexes
to add, the unknown index otherwise. The loop never takes an index from an empty list, since it
makes as many calls as there are indexes. -/
def popIndex : Option (List ℤ) → ℤ × Option (List ℤ)
  | some (ix :: rest) => (ix, some rest)
  | indexesToAdd => (unknownCompletionIndex, indexesToAdd)

/-- One create call, the `s.calls.length`-th: it takes the next index, and a failure lowers the
expectations and `active` and is sent on `errCh`. -/
def createPod (create : ℕ → CreateOutcome) (s : CreateState) : CreateState :=
  let next := popIndex s.indexesToAdd
  let s' := { s with calls := s.calls ++ [next.1], indexesToAdd := next.2 }
  match create s.calls.length with
  | .failed err =>
    { s' with
      errors := s.errors ++ [err]
      expectations := creationObserved s.expectations
      active := s.active - 1 }
  | _ => s'

/-- The slow-start failure: the `skippedPods` creations never attempted are not expected. -/
def skipPods (s : CreateState) (skippedPods : ℤ) : CreateState :=
  { s with
    active := s.active - skippedPods
    expectations := creationObserved^[skippedPods.toNat] s.expectations }

/-- The loop of batches of `manageJob`, with `diff` creations left and a batch of `batchSize`: a
batch with a new error ends the loop, skipping the creations after it; the next batch is twice as
large, or what is left. Each turn makes at least one call, so `diff` turns are enough. -/
def slowStartBatches (create : ℕ → CreateOutcome) : ℕ → ℤ → ℤ → CreateState → CreateState
  | 0, _, _, s => s
  | fuel + 1, diff, batchSize, s =>
    if diff ≤ 0 then s
    else
      let errorCount := s.errors.length
      let s := (createPod create)^[batchSize.toNat] s
      let skippedPods := diff - batchSize
      if errorCount < s.errors.length ∧ 0 < skippedPods then skipPods s skippedPods
      else slowStartBatches create fuel (diff - batchSize) (min (2 * batchSize) (diff - batchSize)) s

/-- The create calls from rank `start` on, `k` of them, that fail other than by the namespace
terminating. -/
def failedCalls (create : ℕ → CreateOutcome) (start k : ℕ) : ℕ :=
  (List.range' start k).countP fun i => (create i).isFailed

theorem failedCalls_succ (create : ℕ → CreateOutcome) (start k : ℕ) :
    failedCalls create start (k + 1) =
      (if (create start).isFailed then 1 else 0) + failedCalls create (start + 1) k := by
  simp only [failedCalls, List.range'_succ, List.countP_cons]
  split_ifs <;> omega

theorem failedCalls_add (create : ℕ → CreateOutcome) (start k l : ℕ) :
    failedCalls create start (k + l) = failedCalls create start k + failedCalls create (start + k) l := by
  rw [failedCalls, ← List.range'_append, List.countP_append, one_mul]
  rfl

/-- What one create call changes. -/
theorem createPod_spec (create : ℕ → CreateOutcome) (s : CreateState) :
    (createPod create s).calls = s.calls ++ [(popIndex s.indexesToAdd).1] ∧
    (createPod create s).indexesToAdd = (popIndex s.indexesToAdd).2 ∧
    (createPod create s).expectations =
      lowerExpectations s.expectations (if (create s.calls.length).isFailed then 1 else 0) 0 ∧
    (createPod create s).active = s.active - (if (create s.calls.length).isFailed then 1 else 0) ∧
    (createPod create s).errors.length =
      s.errors.length + (if (create s.calls.length).isFailed then 1 else 0) := by
  unfold createPod
  cases create s.calls.length <;> simp [CreateOutcome.isFailed, creationObserved]

/-- `k` create calls: each failure lowers the expectations and `active` once, and sends an error. -/
theorem iterate_createPod_spec (create : ℕ → CreateOutcome) (k : ℕ) (s : CreateState) :
    ((createPod create)^[k] s).calls.length = s.calls.length + k ∧
    ((createPod create)^[k] s).expectations =
      lowerExpectations s.expectations (failedCalls create s.calls.length k) 0 ∧
    ((createPod create)^[k] s).active = s.active - failedCalls create s.calls.length k ∧
    ((createPod create)^[k] s).errors.length = s.errors.length + failedCalls create s.calls.length k := by
  induction k generalizing s with
  | zero => simp [failedCalls]
  | succ k ih =>
    obtain ⟨hcalls, -, hexp, hactive, herrors⟩ := createPod_spec create s
    obtain ⟨hcalls', hexp', hactive', herrors'⟩ := ih (createPod create s)
    have hlen : (createPod create s).calls.length = s.calls.length + 1 := by simp [hcalls]
    rw [Function.iterate_succ_apply, failedCalls_succ]
    rw [hlen] at hcalls' hexp' hactive' herrors'
    refine ⟨by omega, ?_, ?_, ?_⟩
    · rw [hexp', hexp, lowerExpectations_lowerExpectations]
      push_cast
      simp
    · rw [hactive', hactive]
      push_cast
      ring
    · rw [herrors', herrors]
      ring

/-- `k` create calls take the next `k` indexes to add, while there are. -/
theorem iterate_createPod_calls (create : ℕ → CreateOutcome) (k : ℕ) :
    ∀ (s : CreateState) (rest : List ℤ), s.indexesToAdd = some rest → k ≤ rest.length →
      ((createPod create)^[k] s).calls = s.calls ++ rest.take k ∧
      ((createPod create)^[k] s).indexesToAdd = some (rest.drop k) := by
  induction k with
  | zero => simp
  | succ k ih =>
    intro s rest hrest hk
    obtain ⟨ix, rest, rfl⟩ : ∃ ix rest', rest = ix :: rest' :=
      List.exists_cons_of_length_pos (by omega)
    obtain ⟨hcalls, hindexes, -⟩ := createPod_spec create s
    simp only [hrest, popIndex] at hcalls hindexes
    obtain ⟨hcalls', hindexes'⟩ := ih (createPod create s) rest hindexes (by simpa using hk)
    rw [Function.iterate_succ_apply, hcalls', hindexes', hcalls]
    simp

theorem skipPods_zero (s : CreateState) : skipPods s 0 = s := by
  simp [skipPods]

/-- The batch loop makes `k` create calls, at most `diff`, and skips the `diff - k` others. -/
theorem slowStartBatches_eq (create : ℕ → CreateOutcome) (fuel : ℕ) :
    ∀ (diff batchSize : ℤ) (s : CreateState), diff ≤ fuel →
      (0 < diff → 0 < batchSize ∧ batchSize ≤ diff) →
      ∃ k : ℕ, k ≤ max diff 0 ∧
        slowStartBatches create fuel diff batchSize s =
          skipPods ((createPod create)^[k] s) (max diff 0 - k) := by
  induction fuel with
  | zero =>
    intro diff batchSize s hfuel _
    exact ⟨0, by omega, by rw [slowStartBatches, show max diff 0 - ((0 : ℕ) : ℤ) = 0 by omega,
      Function.iterate_zero_apply, skipPods_zero]⟩
  | succ fuel ih =>
    intro diff batchSize s hfuel hbatch
    rw [slowStartBatches]
    dsimp only
    split_ifs with hdone hskip
    · exact ⟨0, by omega, by rw [show max diff 0 - ((0 : ℕ) : ℤ) = 0 by omega,
        Function.iterate_zero_apply, skipPods_zero]⟩
    · -- a batch failed with creations left: the rest are skipped
      obtain ⟨hpos, hle⟩ := hbatch (by omega)
      exact ⟨batchSize.toNat, by omega, by rw [show max diff 0 - (batchSize.toNat : ℤ) =
        diff - batchSize by omega]⟩
    · -- the next batch is twice as large, or what is left
      obtain ⟨hpos, hle⟩ := hbatch (by omega)
      obtain ⟨k, hk, heq⟩ := ih (diff - batchSize) (min (2 * batchSize) (diff - batchSize))
        ((createPod create)^[batchSize.toNat] s) (by omega) (fun h => ⟨by omega, by omega⟩)
      refine ⟨k + batchSize.toNat, by omega, ?_⟩
      rw [heq, Function.iterate_add_apply, show max (diff - batchSize) 0 - (k : ℤ) =
        max diff 0 - ((k + batchSize.toNat : ℕ) : ℤ) by omega]

/-! ## `manageJob` -/

/-- What one call of `manageJob` returns and leaves: `active`, the error, the expectations, the
pods it called `DeletePod` for and the completion index of each create call. -/
structure ManageJobResult where
  active : ℤ
  err : Option String
  expectations : Option ControlleeExpectations
  deleted : List Pod
  created : List ℤ

/-- `indexesToAdd`: for an Indexed Job, the first `diff` pending indexes. -/
def indexesToAdd (job : Job) (allPods : List Pod) (diff : ℤ) : Option (List ℤ) :=
  match job.completions with
  | some completions =>
    if job.indexed then some (firstPendingIndexes allPods diff.toNat completions) else none
  | none => none

/-- The number of pods to create: `diff`, or the number of indexes to add. -/
def podsToCreate (indexesToAdd : Option (List ℤ)) (diff : ℤ) : ℤ :=
  match indexesToAdd with
  | some indexesToAdd => indexesToAdd.length
  | none => diff

/-- The creations of `manageJob`, from `active` and `diff > 0` pods to create. -/
def manageJobCreations (create : ℕ → CreateOutcome) (job : Job) (allPods : List Pod)
    (active diff : ℤ) : CreateState :=
  let exp := expectCreations diff
  let indexes := indexesToAdd job allPods diff
  let diff := podsToCreate indexes diff
  slowStartBatches create diff.toNat diff (min diff 1) ⟨[], [], exp, active + diff, indexes⟩

theorem podsToCreate_nonneg (indexes : Option (List ℤ)) {diff : ℤ} (hdiff : 0 ≤ diff) :
    0 ≤ podsToCreate indexes diff := by
  cases indexes with
  | none => exact hdiff
  | some indexes => exact Int.natCast_nonneg _

/-- The creations of `manageJob`: `diff` creations are expected, of which the failed calls and the
skipped ones, and the ones `diff` exceeds the pods to create by, are not expected any more. -/
theorem manageJobCreations_spec (create : ℕ → CreateOutcome) (job : Job) (allPods : List Pod)
    (active diff : ℤ) (hn : 0 ≤ podsToCreate (indexesToAdd job allPods diff) diff) :
    let s := manageJobCreations create job allPods active diff
    let n := podsToCreate (indexesToAdd job allPods diff) diff
    (s.calls.length : ℤ) ≤ n ∧
    s.expectations =
      some ⟨diff - failedCalls create 0 s.calls.length - (n - s.calls.length), 0⟩ ∧
    s.active = active + n - failedCalls create 0 s.calls.length - (n - s.calls.length) := by
  intro s n
  obtain ⟨k, hk, heq⟩ := slowStartBatches_eq create n.toNat n (min n 1)
    ⟨[], [], expectCreations diff, active + n, indexesToAdd job allPods diff⟩ (by omega)
    (fun h => ⟨by omega, by omega⟩)
  obtain ⟨hcalls, hexp, hactive, -⟩ := iterate_createPod_spec create k
    ⟨[], [], expectCreations diff, active + n, indexesToAdd job allPods diff⟩
  have hs : s = skipPods ((createPod create)^[k]
      ⟨[], [], expectCreations diff, active + n, indexesToAdd job allPods diff⟩) (max n 0 - k) :=
    heq
  simp only [List.length_nil, zero_add] at hcalls hexp hactive
  have hlen : s.calls.length = k := by rw [hs, skipPods, hcalls]
  refine ⟨by omega, ?_, ?_⟩
  · rw [hlen, hs, skipPods]
    dsimp only
    rw [hexp, creationObserved_iterate, lowerExpectations_lowerExpectations]
    simp only [expectCreations, setExpectations, lowerExpectations, Option.map_some,
      Option.some.injEq, ControlleeExpectations.mk.injEq]
    omega
  · rw [hlen, hs, skipPods]
    dsimp only
    rw [hactive]
    omega

/-- For an Indexed Job, the create calls take the first of the pending indexes. -/
theorem manageJobCreations_calls_indexed (create : ℕ → CreateOutcome) {job : Job} {c : ℤ}
    (hindexed : job.indexed = true) (hc : job.completions = some c) (allPods : List Pod)
    (active diff : ℤ) :
    ∃ k, (manageJobCreations create job allPods active diff).calls =
      (firstPendingIndexes allPods diff.toNat c).take k := by
  have hix : indexesToAdd job allPods diff = some (firstPendingIndexes allPods diff.toNat c) := by
    simp [indexesToAdd, hc, hindexed]
  set ixs := firstPendingIndexes allPods diff.toNat c
  obtain ⟨k, hk, heq⟩ := slowStartBatches_eq create ixs.length ixs.length (min ixs.length 1)
    ⟨[], [], expectCreations diff, active + ixs.length, some ixs⟩ le_rfl
    (fun h => ⟨by omega, by omega⟩)
  obtain ⟨hcalls, -⟩ := iterate_createPod_calls create k
    ⟨[], [], expectCreations diff, active + ixs.length, some ixs⟩ ixs rfl (by omega)
  refine ⟨k, ?_⟩
  simp only [manageJobCreations, hix, podsToCreate, Int.toNat_natCast]
  rw [heq, skipPods, hcalls, List.nil_append]

/-- `manageJob`. The Job's key is `jobKey`, and `exp` its expectations before the call. -/
def manageJob (deletePod : Pod → DeleteOutcome) (create : ℕ → CreateOutcome) (jobKey : String)
    (exp : Option ControlleeExpectations) (job : Job) (activePods : List Pod) (succeeded : ℤ)
    (allPods : List Pod) : ManageJobResult :=
  let active : ℤ := activePods.length
  let parallelism := job.parallelism
  if job.suspended then
    let podsToDelete := activePodsForRemoval job activePods active
    let (removed, err, exp) :=
      deleteJobPods deletePod jobKey podsToDelete (expectDeletions podsToDelete.length)
    ⟨active - removed, err, exp, podsToDelete, []⟩
  else
    let rmAtLeast := max (active - parallelism) 0
    let podsToDelete := activePodsForRemoval job activePods rmAtLeast
    let (active, err, exp) :=
      if 0 < podsToDelete.length then
        let (removed, err, exp) :=
          deleteJobPods deletePod jobKey podsToDelete (expectDeletions podsToDelete.length)
        (active - removed, err, exp)
      else (active, none, exp)
    match err with
    | some err => ⟨active, some err, exp, podsToDelete, []⟩
    | none =>
      if active < parallelism then
        let wantActive := match job.completions with
          | none => if 0 < succeeded then active else parallelism
          | some completions => min (completions - succeeded) parallelism
        let diff := max (wantActive - active) 0
        if diff = 0 then ⟨active, none, exp, podsToDelete, []⟩
        else
          let s := manageJobCreations create job allPods active diff
          ⟨s.active, s.errors.head?, s.expectations, podsToDelete, s.calls⟩
      else ⟨active, none, exp, podsToDelete, []⟩

/-- Every call deletes the pods `activePodsForRemoval` returns. -/
theorem manageJob_deleted (deletePod : Pod → DeleteOutcome) (create : ℕ → CreateOutcome)
    (jobKey : String) (exp : Option ControlleeExpectations) (job : Job) (activePods : List Pod)
    (succeeded : ℤ) (allPods : List Pod) :
    ∃ rmAtLeast, (manageJob deletePod create jobKey exp job activePods succeeded allPods).deleted =
      activePodsForRemoval job activePods rmAtLeast := by
  unfold manageJob
  dsimp only
  repeat' split
  all_goals exact ⟨_, rfl⟩

/-- A call makes no create call, or its creations are `manageJobCreations` from some `active` and
`diff > 0`. -/
theorem manageJob_created (deletePod : Pod → DeleteOutcome) (create : ℕ → CreateOutcome)
    (jobKey : String) (exp : Option ControlleeExpectations) (job : Job) (activePods : List Pod)
    (succeeded : ℤ) (allPods : List Pod) :
    let r := manageJob deletePod create jobKey exp job activePods succeeded allPods
    r.created = [] ∨ ∃ active diff, 0 < diff ∧
      r.created = (manageJobCreations create job allPods active diff).calls ∧
      r.expectations = (manageJobCreations create job allPods active diff).expectations := by
  unfold manageJob
  dsimp only
  repeat' split
  all_goals first
    | exact .inl rfl
    | exact .inr ⟨_, _, by omega, rfl, rfl⟩

/-- A call that makes a create call expects `diff` creations, less the failed and the skipped
calls and the ones `diff` exceeds the pods to create by, and no deletion. -/
theorem manageJob_creationExpectations (deletePod : Pod → DeleteOutcome)
    (create : ℕ → CreateOutcome) (jobKey : String) (exp : Option ControlleeExpectations) (job : Job)
    (activePods : List Pod) (succeeded : ℤ) (allPods : List Pod)
    (hcreated : (manageJob deletePod create jobKey exp job activePods succeeded allPods).created ≠ []) :
    ∃ diff, 0 < diff ∧
      (manageJob deletePod create jobKey exp job activePods succeeded allPods).expectations =
        some ⟨diff - failedCalls create 0
            (manageJob deletePod create jobKey exp job activePods succeeded allPods).created.length -
          (podsToCreate (indexesToAdd job allPods diff) diff -
            (manageJob deletePod create jobKey exp job activePods succeeded allPods).created.length),
          0⟩ := by
  rcases manageJob_created deletePod create jobKey exp job activePods succeeded allPods with
    hnone | ⟨active, diff, hdiff, hcalls, hexp⟩
  · exact absurd hnone hcreated
  obtain ⟨-, hexp', -⟩ := manageJobCreations_spec create job allPods active diff
    (podsToCreate_nonneg _ hdiff.le)
  exact ⟨diff, hdiff, by rw [hexp, hexp', hcalls]⟩

/-- For an Indexed Job, the create calls take some of the first pending indexes. -/
theorem manageJob_created_indexed (deletePod : Pod → DeleteOutcome) (create : ℕ → CreateOutcome)
    (jobKey : String) (exp : Option ControlleeExpectations) {job : Job} {c : ℤ}
    (hindexed : job.indexed = true) (hc : job.completions = some c) (activePods : List Pod)
    (succeeded : ℤ) (allPods : List Pod) :
    ∃ count k, (manageJob deletePod create jobKey exp job activePods succeeded allPods).created =
      (firstPendingIndexes allPods count c).take k := by
  rcases manageJob_created deletePod create jobKey exp job activePods succeeded allPods with
    hnone | ⟨active, diff, -, hcalls, -⟩
  · exact ⟨0, 0, by rw [hnone, List.take_zero]⟩
  · obtain ⟨k, hk⟩ := manageJobCreations_calls_indexed create hindexed hc allPods active diff
    exact ⟨diff.toNat, k, hcalls.trans hk⟩

/-- **An Indexed Job's pods hold distinct indexes**, when no pod's index is `math.MaxInt64`: the
indexes created are the first pending ones, the active pods kept hold each index once, and the
pods created take indexes below `completions` that no kept pod holds. -/
theorem indexedJob_distinct_indexes {job : Job} {c : ℤ} (hindexed : job.indexed = true)
    (hc : job.completions = some c) {pods : List Pod} (hmax : ∀ p ∈ pods, p.index < 2 ^ 63 - 1) :
    (∀ k : ℕ, firstPendingIndexes pods k c =
      ((intRange 0 c).filter fun i => !heldBy pods i).take k) ∧
    OnePerIndex (pods.filter Pod.isActive)
      (appendDuplicatedIndexPodsForRemoval [] [] (pods.filter Pod.isActive)).1
      (appendDuplicatedIndexPodsForRemoval [] [] (pods.filter Pod.isActive)).2 ∧
    ∀ (deletePod : Pod → DeleteOutcome) (create : ℕ → CreateOutcome) (jobKey : String)
      (exp : Option ControlleeExpectations) (succeeded : ℤ),
      ∃ kept,
        ((manageJob deletePod create jobKey exp job (pods.filter Pod.isActive) succeeded pods).deleted ++
          kept).Perm (pods.filter Pod.isActive) ∧
        (kept.map Pod.index ++
          (manageJob deletePod create jobKey exp job (pods.filter Pod.isActive) succeeded pods).created).Nodup ∧
        ∀ i ∈ (manageJob deletePod create jobKey exp job (pods.filter Pod.isActive) succeeded pods).created,
          0 ≤ i ∧ i < c ∧ heldBy pods i = false := by
  -- no index held is `math.MaxInt64`, so the candidate after it does not wrap
  have hmax' : ∀ i ∈ nonPendingIndexes pods, i < 2 ^ 63 - 1 := by
    intro i hi
    obtain ⟨-, hheld⟩ := mem_nonPendingIndexes.mp hi
    simp only [heldBy, List.any_eq_true, decide_eq_true_eq] at hheld
    obtain ⟨p, hp, -, rfl⟩ := hheld
    exact hmax p hp
  refine ⟨fun k => firstPendingIndexes_eq_heldBy k c hmax', appendDuplicatedIndexPodsForRemoval_spec _, ?_⟩
  intro deletePod create jobKey exp succeeded
  obtain ⟨rmAtLeast, hdeleted⟩ :=
    manageJob_deleted deletePod create jobKey exp job (pods.filter Pod.isActive) succeeded pods
  obtain ⟨kept, hperm, hnodup, -⟩ :=
    activePodsForRemoval_kept hindexed (pods.filter Pod.isActive) rmAtLeast
  obtain ⟨count, k, hcreated⟩ := manageJob_created_indexed deletePod create jobKey exp hindexed hc
    (pods.filter Pod.isActive) succeeded pods
  rw [hdeleted, hcreated]
  have hpending : ∀ i ∈ (firstPendingIndexes pods count c).take k,
      0 ≤ i ∧ i < c ∧ heldBy pods i = false :=
    fun i hi => mem_firstPendingIndexes hmax' (List.mem_of_mem_take hi)
  have hheld : ∀ p ∈ kept, heldBy pods p.index = true := by
    intro p hp
    obtain ⟨hmem, hactive⟩ := List.mem_filter.mp (hperm.subset (List.mem_append_right _ hp))
    simp only [heldBy, List.any_eq_true, decide_eq_true_eq]
    exact ⟨p, hmem, .inr (by simpa using hactive), rfl⟩
  refine ⟨kept, hperm, ?_, hpending⟩
  rw [List.nodup_append]
  refine ⟨hnodup, (firstPendingIndexes_nodup count c hmax').sublist (List.take_sublist _ _), ?_⟩
  simp only [List.mem_map]
  rintro _ ⟨p, hp, rfl⟩ i hi rfl
  have hfree := (hpending _ hi).2.2
  rw [hheld p hp] at hfree
  exact absurd hfree (by decide)

/-- The Indexed Job of `duplicateIndexRun`: two completions, two pods at a time. -/
def twoIndexJob : Job := ⟨2, some 2, true, false⟩

/-- A running pod of index `0`. -/
def indexZeroPod (name : String) : Pod :=
  ⟨name, .running, false, some "0", "node", true, some 0, 0, some 0⟩

/-- `manageJob` on `twoIndexJob` with two running pods of index `0` and every call succeeding. -/
def duplicateIndexRun : ManageJobResult :=
  manageJob (fun _ => .ok) (fun _ => .ok) "default/job" none twoIndexJob
    [indexZeroPod "a", indexZeroPod "b"] 0 [indexZeroPod "a", indexZeroPod "b"]

theorem manageJob_drops_expected_deletion :
    duplicateIndexRun.deleted.length = 1 ∧ duplicateIndexRun.created = [1] ∧
      duplicateIndexRun.expectations = some ⟨1, 0⟩ := by
  decide

end Kubernetes.JobController
