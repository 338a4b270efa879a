import Kubernetes.StatefulSet.Control

/-!
# Ordered pod management

Under `OrderedReady` pod management one `updateStatefulSet` step keeps to `OrderedReadyStep`
(`updateStatefulSet_orderedReady`), for pods of distinct ordinals and whatever the API server
accepts: at most one creation or deletion, or a failed pod's deletion and its creation again at the
same ordinal; a pod created only once every pod of lower ordinal exists, is not terminating and is
Running and Ready; a pod of ordinal `replicas` or more deleted only when every replica is Running
and Ready, and only the one of highest ordinal; and, under `RollingUpdate`, a pod deleted for the
update only at or above the partition, when it is not at the update revision and every pod above
it is healthy and at it.

The proof goes loop by loop. The loop over the replicas keeps to `OrderedLoop`
(`replicasLoop_orderedLoop`, by induction on the replicas from ordinal `i`); the condemned loop
stops at its first pod (`condemnedLoop_monotonic`); the rolling update's loop deletes the first pod
off the update revision, counting from the top (`updateLoop_spec`). Each way a step can end is one
lemma (`OrderedReadyStep.ofReplicasLoop`, `ofCondemned`, `ofUpdate`).
-/

namespace Kubernetes.StatefulSetController

/-- Whether a call creates or deletes a pod, rather than updating one. -/
def Call.createsOrDeletes : Call → Bool
  | .updateStatefulPod _ => false
  | _ => true

@[simp] theorem Call.createsOrDeletes_createStatefulPod (pod : Pod) :
    (Call.createStatefulPod pod).createsOrDeletes = true := rfl

@[simp] theorem Call.createsOrDeletes_deleteStatefulPod (pod : Pod) :
    (Call.deleteStatefulPod pod).createsOrDeletes = true := rfl

@[simp] theorem Call.createsOrDeletes_updateStatefulPod (pod : Pod) :
    (Call.updateStatefulPod pod).createsOrDeletes = false := rfl

/-- At most one creation or deletion, or the deletion of a failed pod and the creation of its
replacement at the same ordinal. -/
def AtMostOneChange (calls : List Call) : Prop :=
  (calls.filter Call.createsOrDeletes).length ≤ 1 ∨
    ∃ p q, calls.filter Call.createsOrDeletes = [.deleteStatefulPod p, .createStatefulPod q] ∧
      isFailed p ∧ q.ordinal = p.ordinal

section Replicas

variable {set : StatefulSet} {currentRevision updateRevision : String} {pods : List Pod}

@[simp] theorem replicaAt_ordinal (ord : ℕ) :
    (replicaAt set currentRevision updateRevision pods ord).ordinal = ord := by
  unfold replicaAt
  cases h : (pods.filter fun pod => pod.ordinal = (ord : ℤ)).getLast? with
  | none => rfl
  | some p =>
    have := List.mem_of_getLast? h
    simpa using (List.mem_filter.mp this).2

/-- A replica that is created is one of the listed pods: the new ones are not created. -/
theorem replicaAt_mem_of_isCreated {ord : ℕ}
    (h : isCreated (replicaAt set currentRevision updateRevision pods ord)) :
    replicaAt set currentRevision updateRevision pods ord ∈ pods := by
  unfold replicaAt at h ⊢
  cases hl : (pods.filter fun pod => pod.ordinal = (ord : ℤ)).getLast? with
  | none =>
    rw [hl] at h
    simp [newVersionedStatefulSetPod, isCreated] at h
  | some p => exact (List.mem_filter.mp (List.mem_of_getLast? hl)).1

/-- With distinct ordinals, a listed pod is the replica of its ordinal. -/
theorem replicaAt_of_mem (hnodup : (pods.map (·.ordinal)).Nodup) {p : Pod} (hp : p ∈ pods)
    {ord : ℕ} (h : p.ordinal = ord) : replicaAt set currentRevision updateRevision pods ord = p := by
  unfold replicaAt
  have hmem : p ∈ pods.filter fun pod => pod.ordinal = (ord : ℤ) := List.mem_filter.mpr ⟨hp, by simpa using h⟩
  cases hl : (pods.filter fun pod => pod.ordinal = (ord : ℤ)).getLast? with
  | none => simp_all
  | some q =>
    have hq := List.mem_filter.mp (List.mem_of_getLast? hl)
    have hqord : q.ordinal = p.ordinal := by rw [h]; simpa using hq.2
    exact List.inj_on_of_nodup_map hnodup hq.1 hp hqord

@[simp] theorem length_replicasOf :
    (replicasOf set currentRevision updateRevision pods).length = set.replicas := by
  simp [replicasOf]

theorem map_ordinal_replicasOf :
    (replicasOf set currentRevision updateRevision pods).map (·.ordinal) =
      (List.range' 0 set.replicas).map Nat.cast := by
  simp [replicasOf, List.range_eq_range', Function.comp_def]

theorem mem_replicasOf_drop {m : ℕ} {p : Pod} :
    p ∈ (replicasOf set currentRevision updateRevision pods).drop m ↔
      ∃ k, m ≤ k ∧ k < set.replicas ∧ p = replicaAt set currentRevision updateRevision pods k := by
  rw [replicasOf, ← List.map_drop, List.range_eq_range', List.drop_range', List.mem_map]
  constructor
  · rintro ⟨k, hk, rfl⟩
    obtain ⟨j, hj, rfl⟩ := List.mem_range'.mp hk
    exact ⟨m + j, by omega, by omega, by simp⟩
  · rintro ⟨k, hmk, hk, rfl⟩
    exact ⟨k, List.mem_range'.mpr ⟨k - m, by omega, by omega⟩, rfl⟩

end Replicas

/-! ## The loop over the replicas -/

/-- What the loop over the replicas `L` does under `OrderedReady`, with its calls and result: one
change at most; a pod created only after those of lower ordinal are healthy; only failed replicas
deleted; and the loop is left for the next one only when every replica is healthy, unchanged. -/
structure OrderedLoop (L : List Pod) (calls : List Call) (res : Option (List Pod)) : Prop where
  change : AtMostOneChange calls
  create : ∀ q, .createStatefulPod q ∈ calls →
    (∃ x ∈ L, q.ordinal = x.ordinal) ∧ ∀ x ∈ L, x.ordinal < q.ordinal → isHealthy x
  delete : ∀ p, .deleteStatefulPod p ∈ calls → p ∈ L ∧ isFailed p
  done : ∀ L', res = some L' →
    L' = L ∧ (∀ x ∈ L, isHealthy x) ∧ calls.filter Call.createsOrDeletes = []

/-- A step that returns without creating or deleting. -/
theorem OrderedLoop.stop {L : List Pod} {calls : List Call}
    (h : ∀ c ∈ calls, ∃ p, c = .updateStatefulPod p) : OrderedLoop L calls none := by
  have hnil : calls.filter Call.createsOrDeletes = [] := by
    rw [List.filter_eq_nil_iff]
    intro c hc
    obtain ⟨p, rfl⟩ := h c hc
    simp
  refine ⟨.inl (by simp [hnil]), fun q hq => ?_, fun p hp => ?_, fun _ h => absurd h (by simp)⟩
  · obtain ⟨_, h⟩ := h _ hq
    cases h
  · obtain ⟨_, h⟩ := h _ hp
    cases h

/-- A healthy replica the loop goes past, possibly with an update. -/
theorem OrderedLoop.cons {pod : Pod} {rest : List Pod} {pre calls : List Call}
    {res : Option (List Pod)} (hpod : isHealthy pod) (hpre : ∀ c ∈ pre, c = .updateStatefulPod pod)
    (h : OrderedLoop rest calls res) :
    OrderedLoop (pod :: rest) (pre ++ calls) (res.map (pod :: ·)) := by
  have hfilter : (pre ++ calls).filter Call.createsOrDeletes = calls.filter Call.createsOrDeletes := by
    rw [List.filter_append, List.filter_eq_nil_iff.mpr, List.nil_append]
    intro c hc
    rw [hpre c hc]
    simp
  have hcall : ∀ c ∈ pre ++ calls, c.createsOrDeletes → c ∈ calls := by
    intro c hc hcd
    rcases List.mem_append.mp hc with hc | hc
    · rw [hpre c hc] at hcd
      simp at hcd
    · exact hc
  refine ⟨?_, fun q hq => ?_, fun p hp => ?_, fun L' hL' => ?_⟩
  · unfold AtMostOneChange
    rw [hfilter]
    exact h.change
  · obtain ⟨⟨x, hx, hqx⟩, hlow⟩ := h.create q (hcall _ hq rfl)
    refine ⟨⟨x, List.mem_cons_of_mem _ hx, hqx⟩, fun y hy hlt => ?_⟩
    rcases List.mem_cons.mp hy with rfl | hy
    · exact hpod
    · exact hlow y hy hlt
  · obtain ⟨hmem, hfailed⟩ := h.delete p (hcall _ hp rfl)
    exact ⟨List.mem_cons_of_mem _ hmem, hfailed⟩
  · obtain ⟨L'', hres, rfl⟩ := Option.map_eq_some_iff.mp hL'
    obtain ⟨rfl, hall, hnil⟩ := h.done L'' hres
    refine ⟨rfl, fun x hx => ?_, by rw [hfilter]; exact hnil⟩
    rcases List.mem_cons.mp hx with rfl | hx
    · exact hpod
    · exact hall x hx

section Loop

variable {set : StatefulSet} {currentRevision updateRevision : String}

theorem isCreated_newVersionedStatefulSetPod (ordinal : ℕ) :
    isCreated (newVersionedStatefulSetPod set currentRevision updateRevision ordinal) = false := rfl

@[simp] theorem newVersionedStatefulSetPod_ordinal (ordinal : ℕ) :
    (newVersionedStatefulSetPod set currentRevision updateRevision ordinal).ordinal = ordinal := rfl

/-- A healthy pod is Running and Ready and not terminating; being Running, it is created and has
not failed. -/
theorem isHealthy_spec {pod : Pod} (h : isHealthy pod) :
    isRunningAndReady pod ∧ isTerminating pod = false ∧ isCreated pod ∧ isFailed pod = false := by
  simp only [isHealthy, Bool.and_eq_true, Bool.not_eq_true'] at h
  refine ⟨h.1, h.2, ?_⟩
  have h1 := h.1
  simp only [isRunningAndReady, Bool.and_eq_true, beq_iff_eq] at h1
  simp [isCreated, isFailed, h1.1]

/-- The loop over the replicas under `OrderedReady` keeps to `OrderedLoop`, on replicas of
consecutive ordinals from `i`. -/
theorem replicasLoop_orderedLoop (succeeds : Call → Bool) :
    ∀ {i : ℕ} {L : List Pod}, L.map (·.ordinal) = (List.range' i L.length).map Nat.cast →
      OrderedLoop L (replicasLoop set currentRevision updateRevision succeeds true i L).1
        (replicasLoop set currentRevision updateRevision succeeds true i L).2
  | _, [], _ => by
    simp only [replicasLoop]
    exact ⟨.inl (by simp), by simp, by simp, fun L' h => by simp_all⟩
  | i, pod :: rest, hord => by
    rw [List.map_cons, List.length_cons, List.range'_succ, List.map_cons, List.cons.injEq] at hord
    obtain ⟨hpod, hrest⟩ := hord
    have hge : ∀ x ∈ pod :: rest, (i : ℤ) ≤ x.ordinal := by
      intro x hx
      rcases List.mem_cons.mp hx with rfl | hx
      · rw [hpod]
      · obtain ⟨k, hk, hxk⟩ := List.mem_map.mp (hrest ▸ List.mem_map_of_mem hx)
        obtain ⟨j, -, rfl⟩ := List.mem_range'.mp hk
        omega
    have ih := replicasLoop_orderedLoop succeeds (i := i + 1) (L := rest) (by simpa using hrest)
    have hfirst : ∀ {q : Pod}, q.ordinal = i → ∀ x ∈ pod :: rest, x.ordinal < q.ordinal → isHealthy x :=
      fun hq x hx hlt => absurd (hge x hx) (by omega)
    by_cases hf : isFailed pod = true
    · -- a failed pod is deleted, and created again unless the deletion fails
      by_cases hd : succeeds (.deleteStatefulPod pod) = true
      · have hcall : replicasLoop set currentRevision updateRevision succeeds true i (pod :: rest) =
            ([.deleteStatefulPod pod, .createStatefulPod
              (newVersionedStatefulSetPod set currentRevision updateRevision i)], none) := by
          by_cases hc : succeeds (.createStatefulPod
              (newVersionedStatefulSetPod set currentRevision updateRevision i)) = true <;>
            simp [replicasLoop, hf, hd, hc, isCreated_newVersionedStatefulSetPod]
        rw [hcall]
        refine ⟨.inr ⟨pod, newVersionedStatefulSetPod set currentRevision updateRevision i,
          by simp [List.filter_cons], hf, by simp [hpod]⟩, fun q hq => ?_,
          fun p hp => ?_, by simp⟩
        · simp only [List.mem_cons, reduceCtorEq, Call.createStatefulPod.injEq, List.not_mem_nil,
            or_false, false_or] at hq
          subst hq
          exact ⟨⟨pod, List.mem_cons_self, by simp [hpod]⟩, hfirst (by simp)⟩
        · simp only [List.mem_cons, Call.deleteStatefulPod.injEq, reduceCtorEq, List.not_mem_nil,
            or_false] at hp
          subst hp
          exact ⟨List.mem_cons_self, hf⟩
      · have hcall : replicasLoop set currentRevision updateRevision succeeds true i (pod :: rest) =
            ([.deleteStatefulPod pod], none) := by
          simp [replicasLoop, hf, hd]
        rw [hcall]
        refine ⟨.inl (by simp [List.filter_cons]), by simp, fun p hp => ?_, by simp⟩
        simp only [List.mem_cons, Call.deleteStatefulPod.injEq, List.not_mem_nil, or_false] at hp
        subst hp
        exact ⟨List.mem_cons_self, hf⟩
    by_cases hc : isCreated pod = true
    · by_cases hh : isHealthy pod = true
      · -- a healthy replica: its identity and storage are brought up to date, and the loop goes on
        by_cases hid : pod.identityMatches = true ∧ pod.storageMatches = true
        · have hcall : replicasLoop set currentRevision updateRevision succeeds true i (pod :: rest) =
              ([] ++ (replicasLoop set currentRevision updateRevision succeeds true (i + 1) rest).1,
                (replicasLoop set currentRevision updateRevision succeeds true (i + 1) rest).2.map
                  (pod :: ·)) := by
            simp [replicasLoop, hf, hc, (isHealthy_spec hh).1, (isHealthy_spec hh).2.1, hid]
          rw [hcall]
          exact OrderedLoop.cons hh (by simp) ih
        by_cases hu : succeeds (.updateStatefulPod pod) = true
        · have hcall : replicasLoop set currentRevision updateRevision succeeds true i (pod :: rest) =
              ([.updateStatefulPod pod] ++
                (replicasLoop set currentRevision updateRevision succeeds true (i + 1) rest).1,
                (replicasLoop set currentRevision updateRevision succeeds true (i + 1) rest).2.map
                  (pod :: ·)) := by
            simp [replicasLoop, hf, hc, (isHealthy_spec hh).1, (isHealthy_spec hh).2.1, hid, hu]
          rw [hcall]
          exact OrderedLoop.cons hh (by simp) ih
        · have hcall : replicasLoop set currentRevision updateRevision succeeds true i (pod :: rest) =
              ([.updateStatefulPod pod], none) := by
            simp [replicasLoop, hf, hc, (isHealthy_spec hh).1, (isHealthy_spec hh).2.1, hid, hu]
          rw [hcall]
          exact OrderedLoop.stop (by simp)
      · -- a replica terminating, or not Running and Ready: the step waits
        have hcall : replicasLoop set currentRevision updateRevision succeeds true i (pod :: rest) =
            ([], none) := by
          simp only [isHealthy, Bool.and_eq_true, Bool.not_eq_true', not_and] at hh
          by_cases ht : isTerminating pod = true
          · simp [replicasLoop, hf, hc, ht]
          · have hrr : isRunningAndReady pod = false := by
              by_contra hrr
              exact hh (by simpa using hrr) (by simpa using ht)
            simp [replicasLoop, hf, hc, ht, hrr]
        rw [hcall]
        exact OrderedLoop.stop (by simp)
    · -- a missing replica is created, and the step returns
      have hcall : replicasLoop set currentRevision updateRevision succeeds true i (pod :: rest) =
          ([.createStatefulPod pod], none) := by
        by_cases hs : succeeds (.createStatefulPod pod) = true <;> simp [replicasLoop, hf, hc, hs]
      rw [hcall]
      refine ⟨.inl (by simp [List.filter_cons]), fun q hq => ?_, by simp, by simp⟩
      simp only [List.mem_cons, Call.createStatefulPod.injEq, List.not_mem_nil, or_false] at hq
      subst hq
      exact ⟨⟨q, List.mem_cons_self, rfl⟩, hfirst hpod⟩

/-- Under `OrderedReady` the loop over the condemned pods stops at the first one: it deletes it
or nothing, and the step returns. -/
theorem condemnedLoop_monotonic (firstUnhealthyPod : Option Pod) (succeeds : Call → Bool)
    (pod : Pod) (rest : List Pod) :
    (condemnedLoop true firstUnhealthyPod succeeds (pod :: rest)).2 = true ∧
      ((condemnedLoop true firstUnhealthyPod succeeds (pod :: rest)).1 = [] ∨
        (condemnedLoop true firstUnhealthyPod succeeds (pod :: rest)).1 =
          [.deleteStatefulPod pod]) := by
  simp only [condemnedLoop]
  split_ifs <;> simp

/-- The loop of a rolling update, over pods of decreasing ordinal, deletes nothing, or the first
pod not at the update revision, when all those before it are healthy and at it. -/
theorem updateLoop_spec (updateRevision : String) :
    ∀ {L : List Pod}, L.Pairwise (fun a b => b.ordinal < a.ordinal) →
      updateLoop updateRevision L = [] ∨
        ∃ p ∈ L, updateLoop updateRevision L = [.deleteStatefulPod p] ∧
          p.revision ≠ updateRevision ∧
          ∀ p' ∈ L, p.ordinal < p'.ordinal → isHealthy p' ∧ p'.revision = updateRevision
  | [], _ => .inl rfl
  | pod :: rest, hL => by
    rw [List.pairwise_cons] at hL
    by_cases hdel : pod.revision ≠ updateRevision ∧ isTerminating pod = false
    · -- `pod` has the highest ordinal: nothing comes before it
      refine .inr ⟨pod, List.mem_cons_self, by simp [updateLoop, hdel], hdel.1, fun p' hp' hlt => ?_⟩
      rcases List.mem_cons.mp hp' with rfl | hp'
      · exact absurd hlt (lt_irrefl _)
      · exact absurd (hL.1 p' hp') (not_lt.mpr hlt.le)
    by_cases hh : isHealthy pod = true
    · -- a healthy pod is not terminating, so it is at the update revision
      have hrev : pod.revision = updateRevision := by
        by_contra hne
        exact hdel ⟨hne, (isHealthy_spec hh).2.1⟩
      have hcall : updateLoop updateRevision (pod :: rest) = updateLoop updateRevision rest := by
        simp [updateLoop, hrev, hh]
      rw [hcall]
      rcases updateLoop_spec updateRevision hL.2 with h | ⟨p, hp, h, hne, hafter⟩
      · exact .inl h
      · refine .inr ⟨p, List.mem_cons_of_mem _ hp, h, hne, fun p' hp' hlt => ?_⟩
        rcases List.mem_cons.mp hp' with rfl | hp'
        · exact ⟨hh, hrev⟩
        · exact hafter p' hp' hlt
    · refine .inl ?_
      have hdel' : ¬ (pod.revision ≠ updateRevision ∧ (!isTerminating pod) = true) := by simpa using hdel
      simp only [updateLoop, hdel', if_false]
      simp [hh]

end Loop

/-! ## One step -/

section Step

variable {set : StatefulSet} {currentRevision updateRevision : String} {succeeds : Call → Bool}
  {pods : List Pod}

theorem mem_sortAscendingOrdinal {l : List Pod} {p : Pod} : p ∈ sortAscendingOrdinal l ↔ p ∈ l :=
  (List.perm_insertionSort _ l).mem_iff

theorem pairwise_sortAscendingOrdinal (l : List Pod) :
    (sortAscendingOrdinal l).Pairwise (fun a b => a.ordinal ≤ b.ordinal) :=
  @List.pairwise_insertionSort _ (fun a b => a.ordinal ≤ b.ordinal) _
    ⟨fun a b => le_total a.ordinal b.ordinal⟩ ⟨fun _ _ _ => le_trans⟩ l

/-- What a step of `set` under `OrderedReady` may do to the pods `pods`: at most one creation or
deletion, or a failed pod's deletion and its creation again; a pod created only when all those of
lower ordinal exist and are Running and Ready, and not terminating; a pod of ordinal `replicas` or
more deleted only when every replica is Running and Ready, and only the highest; and a pod deleted
for an update only under `RollingUpdate`, at or above the partition, not at the update revision,
with every pod above it healthy and at it. -/
structure OrderedReadyStep (set : StatefulSet) (updateRevision : String) (pods : List Pod)
    (calls : List Call) : Prop where
  change : AtMostOneChange calls
  create : ∀ q, .createStatefulPod q ∈ calls → ∀ j : ℕ, (j : ℤ) < q.ordinal →
    ∃ p ∈ pods, p.ordinal = j ∧ isTerminating p = false ∧ isRunningAndReady p
  scaleDown : ∀ p, .deleteStatefulPod p ∈ calls → (set.replicas : ℤ) ≤ p.ordinal →
    (∀ j < set.replicas, ∃ p' ∈ pods, p'.ordinal = j ∧ isRunningAndReady p') ∧
      ∀ p' ∈ pods, p'.ordinal ≤ p.ordinal
  update : ∀ p, .deleteStatefulPod p ∈ calls → p.ordinal < (set.replicas : ℤ) → isFailed p = false →
    set.updateStrategyType = .rollingUpdate ∧ ((set.rollingUpdate.getD 0 : ℕ) : ℤ) ≤ p.ordinal ∧
      p.revision ≠ updateRevision ∧
      ∀ p' ∈ pods, p.ordinal < p'.ordinal → isHealthy p' ∧ p'.revision = updateRevision

theorem OrderedReadyStep.nil : OrderedReadyStep set updateRevision pods [] :=
  ⟨.inl (by simp), by simp, by simp, by simp⟩

theorem mem_replicasOf {x : Pod} :
    x ∈ replicasOf set currentRevision updateRevision pods ↔
      ∃ k < set.replicas, x = replicaAt set currentRevision updateRevision pods k := by
  simp [replicasOf, eq_comm]

theorem ordinal_of_mem_replicasOf {x : Pod} (hx : x ∈ replicasOf set currentRevision updateRevision pods) :
    0 ≤ x.ordinal ∧ x.ordinal < (set.replicas : ℤ) := by
  obtain ⟨k, hk, rfl⟩ := mem_replicasOf.mp hx
  simp [hk]

/-- A healthy replica is one of the pods, with the replica's ordinal. -/
theorem exists_pod_of_isHealthy {k : ℕ}
    (h : isHealthy (replicaAt set currentRevision updateRevision pods k)) :
    ∃ p ∈ pods, p.ordinal = k ∧ isHealthy p :=
  ⟨_, replicaAt_mem_of_isCreated (isHealthy_spec h).2.2.1, by simp, h⟩

/-- A step that returns in the loop over the replicas. -/
theorem OrderedReadyStep.ofReplicasLoop {calls : List Call}
    (h : OrderedLoop (replicasOf set currentRevision updateRevision pods) calls none) :
    OrderedReadyStep set updateRevision pods calls := by
  refine ⟨h.change, fun q hq j hj => ?_, fun p hp hge => ?_, fun p hp _ hfailed => ?_⟩
  · -- the replica of ordinal `j` comes before the created pod, so it is healthy
    obtain ⟨⟨x, hx, hqx⟩, hlow⟩ := h.create q hq
    have hxlt := (ordinal_of_mem_replicasOf hx).2
    have hjn : j < set.replicas := by omega
    have hslot := hlow _ (mem_replicasOf.mpr ⟨j, hjn, rfl⟩) (by simpa using hj)
    obtain ⟨p, hp, hpj, hph⟩ := exists_pod_of_isHealthy hslot
    exact ⟨p, hp, hpj, (isHealthy_spec hph).2.1, (isHealthy_spec hph).1⟩
  · -- the loop deletes replicas only, below `replicas`
    have := (ordinal_of_mem_replicasOf (h.delete p hp).1).2
    omega
  · exact absurd (h.delete p hp).2 (by simp [hfailed])

/-- No creation or deletion among calls whose creations and deletions filter to nothing. -/
theorem not_mem_of_filter_eq_nil {calls : List Call} {c : Call}
    (h : calls.filter Call.createsOrDeletes = []) (hc : c.createsOrDeletes) : c ∉ calls :=
  fun hmem => absurd hc (by simpa using List.filter_eq_nil_iff.mp h c hmem)

/-- The replicas have increasing ordinals. -/
theorem pairwise_replicasOf :
    (replicasOf set currentRevision updateRevision pods).Pairwise fun a b => a.ordinal < b.ordinal := by
  have h : ((List.range' 0 set.replicas).map (Nat.cast : ℕ → ℤ)).Pairwise (· < ·) :=
    (List.pairwise_lt_range' (s := 0) (n := set.replicas)).map _ fun _ _ hab => by omega
  rw [← map_ordinal_replicasOf, List.pairwise_map] at h
  exact h

/-- A step that goes through every replica, then deletes the condemned pod of highest ordinal, or
waits for it. -/
theorem OrderedReadyStep.ofCondemned {calls extra : List Call} {p : Pod}
    (h : OrderedLoop (replicasOf set currentRevision updateRevision pods) calls
      (some (replicasOf set currentRevision updateRevision pods)))
    (hp : p ∈ pods) (hge : (set.replicas : ℤ) ≤ p.ordinal)
    (hmax : ∀ x ∈ pods, (set.replicas : ℤ) ≤ x.ordinal → x.ordinal ≤ p.ordinal)
    (hextra : extra = [] ∨ extra = [.deleteStatefulPod p]) :
    OrderedReadyStep set updateRevision pods (calls ++ extra) := by
  obtain ⟨-, hall, hnil⟩ := h.done _ rfl
  have hextra' : ∀ c ∈ calls ++ extra, c.createsOrDeletes → c ∈ extra := by
    intro c hc hcd
    rcases List.mem_append.mp hc with hc | hc
    · exact absurd hc (not_mem_of_filter_eq_nil hnil hcd)
    · exact hc
  refine ⟨?_, fun q hq => ?_, fun p' hp' _ => ?_, fun p' hp' hlt _ => ?_⟩
  · left
    rw [List.filter_append, hnil, List.nil_append]
    rcases hextra with rfl | rfl <;> simp [List.filter_cons]
  · have := hextra' _ hq rfl
    rcases hextra with rfl | rfl <;> simp at this
  · have hp'p : p' = p := by
      have := hextra' _ hp' rfl
      rcases hextra with rfl | rfl <;> simp_all
    subst hp'p
    refine ⟨fun j hj => ?_, fun x hx => ?_⟩
    · obtain ⟨p'', hp'', hj', hh⟩ :=
        exists_pod_of_isHealthy (hall _ (mem_replicasOf.mpr ⟨j, hj, rfl⟩))
      exact ⟨p'', hp'', hj', (isHealthy_spec hh).1⟩
    · by_cases hx' : (set.replicas : ℤ) ≤ x.ordinal
      · exact hmax x hx hx'
      · omega
  · have hp'p : p' = p := by
      have := hextra' _ hp' rfl
      rcases hextra with rfl | rfl <;> simp_all
    subst hp'p
    omega

/-- A step that goes through every replica, finds no condemned pod, and goes on to the rolling
update's loop, or stops there under `OnDelete`. -/
theorem OrderedReadyStep.ofUpdate {calls extra : List Call}
    (hnodup : (pods.map (·.ordinal)).Nodup)
    (h : OrderedLoop (replicasOf set currentRevision updateRevision pods) calls
      (some (replicasOf set currentRevision updateRevision pods)))
    (hbelow : ∀ x ∈ pods, x.ordinal < (set.replicas : ℤ))
    (hextra : extra = [] ∨ (set.updateStrategyType = .rollingUpdate ∧ extra = updateLoop updateRevision
      ((replicasOf set currentRevision updateRevision pods).drop (set.rollingUpdate.getD 0)).reverse)) :
    OrderedReadyStep set updateRevision pods (calls ++ extra) := by
  obtain ⟨-, -, hnil⟩ := h.done _ rfl
  have hextra' : ∀ c ∈ calls ++ extra, c.createsOrDeletes → c ∈ extra := by
    intro c hc hcd
    rcases List.mem_append.mp hc with hc | hc
    · exact absurd hc (not_mem_of_filter_eq_nil hnil hcd)
    · exact hc
  -- the rolling update's loop deletes one pod at most, found from the top
  have hdesc : ((replicasOf set currentRevision updateRevision pods).drop
      (set.rollingUpdate.getD 0)).reverse.Pairwise fun a b => b.ordinal < a.ordinal :=
    List.pairwise_reverse.mpr (pairwise_replicasOf.drop)
  have hshape : extra = [] ∨ ∃ p, set.updateStrategyType = .rollingUpdate ∧
      p ∈ ((replicasOf set currentRevision updateRevision pods).drop (set.rollingUpdate.getD 0)) ∧
      extra = [.deleteStatefulPod p] ∧ p.revision ≠ updateRevision ∧
      ∀ p' ∈ (replicasOf set currentRevision updateRevision pods).drop (set.rollingUpdate.getD 0),
        p.ordinal < p'.ordinal → isHealthy p' ∧ p'.revision = updateRevision := by
    rcases hextra with h | ⟨hru, rfl⟩
    · exact .inl h
    rcases updateLoop_spec updateRevision hdesc with h | ⟨p, hp, h, hne, hafter⟩
    · exact .inl h
    · exact .inr ⟨p, hru, List.mem_reverse.mp hp, h, hne,
        fun p' hp' => hafter p' (List.mem_reverse.mpr hp')⟩
  refine ⟨?_, fun q hq => ?_, fun p' hp' hge => ?_, fun p' hp' hlt _ => ?_⟩
  · left
    rw [List.filter_append, hnil, List.nil_append]
    rcases hshape with h | ⟨p, -, -, h, -⟩ <;> simp [h, List.filter_cons]
  · have := hextra' _ hq rfl
    rcases hshape with h | ⟨p, -, -, h, -⟩ <;> simp [h] at this
  · have := hextra' _ hp' rfl
    rcases hshape with h | ⟨p, -, hp, h, -⟩
    · simp [h] at this
    · simp only [h, List.mem_singleton, Call.deleteStatefulPod.injEq] at this
      subst this
      have := (ordinal_of_mem_replicasOf (List.mem_of_mem_drop hp)).2
      omega
  · have := hextra' _ hp' rfl
    rcases hshape with h | ⟨p, hru, hp, h, hne, hafter⟩
    · simp [h] at this
    simp only [h, List.mem_singleton, Call.deleteStatefulPod.injEq] at this
    subst this
    obtain ⟨k, hmk, hk, rfl⟩ := mem_replicasOf_drop.mp hp
    refine ⟨hru, by simpa using hmk, hne, fun x hx hlt => hafter x ?_ hlt⟩
    simp only [replicaAt_ordinal] at hlt
    have hxlt := hbelow x hx
    rw [mem_replicasOf_drop]
    refine ⟨x.ordinal.toNat, by omega, by omega, ?_⟩
    exact (replicaAt_of_mem hnodup hx (by omega)).symm

theorem updateStatefulSet_orderedReady (hpolicy : set.podManagementPolicy = .orderedReady)
    (hnodup : (pods.map (·.ordinal)).Nodup) :
    OrderedReadyStep set updateRevision pods
      (updateStatefulSet set currentRevision updateRevision succeeds pods) := by
  have hloop : OrderedLoop (replicasOf set currentRevision updateRevision pods)
      (replicasLoop set currentRevision updateRevision succeeds true 0
        (replicasOf set currentRevision updateRevision pods)).1
      (replicasLoop set currentRevision updateRevision succeeds true 0
        (replicasOf set currentRevision updateRevision pods)).2 :=
    replicasLoop_orderedLoop succeeds (by rw [map_ordinal_replicasOf, length_replicasOf])
  have hmono : (!allowsBurst set) = true := by simp [allowsBurst, hpolicy]
  unfold updateStatefulSet
  simp only [hmono]
  split
  · exact .nil
  split
  · rename_i hnone
    rw [hnone] at hloop
    exact .ofReplicasLoop hloop
  rename_i replicas hsome
  obtain ⟨rfl, -, -⟩ := hloop.done replicas hsome
  rw [hsome] at hloop
  have hcondemned : ∀ {x : Pod}, x ∈ (sortAscendingOrdinal (pods.filter fun pod =>
      pod.ordinal ≥ set.replicas)).reverse ↔ x ∈ pods ∧ (set.replicas : ℤ) ≤ x.ordinal := by
    intro x
    simp [mem_sortAscendingOrdinal]
  have hdesc := List.pairwise_reverse.mpr (pairwise_sortAscendingOrdinal (pods.filter fun pod =>
    pod.ordinal ≥ set.replicas))
  cases hC : (sortAscendingOrdinal (pods.filter fun pod => pod.ordinal ≥ set.replicas)).reverse with
  | cons pod rest =>
    -- under `OrderedReady` the first condemned pod ends the step
    rw [hC] at hcondemned hdesc
    obtain ⟨hret, hextra⟩ := condemnedLoop_monotonic ((replicasOf set currentRevision updateRevision
      pods ++ sortAscendingOrdinal (pods.filter fun pod => pod.ordinal ≥ set.replicas)).find?
        (fun pod => !isHealthy pod)) succeeds pod rest
    rw [if_pos hret]
    obtain ⟨hpod, hge⟩ := hcondemned.mp List.mem_cons_self
    refine .ofCondemned hloop hpod hge (fun x hx hxge => ?_) hextra
    rcases List.mem_cons.mp (hcondemned.mpr ⟨hx, hxge⟩) with rfl | hx'
    · exact le_refl _
    · exact (List.pairwise_cons.mp hdesc).1 x hx'
  | nil =>
    have hbelow : ∀ x ∈ pods, x.ordinal < (set.replicas : ℤ) := by
      intro x hx
      by_contra hge
      have := hcondemned.mpr ⟨hx, by omega⟩
      rw [hC] at this
      simp at this
    have hcall : condemnedLoop true ((replicasOf set currentRevision updateRevision pods ++
        sortAscendingOrdinal (pods.filter fun pod => pod.ordinal ≥ set.replicas)).find?
          (fun pod => !isHealthy pod)) succeeds [] = ([], false) := rfl
    rw [hcall]
    simp only [Bool.false_eq_true, if_false, List.append_nil]
    split
    · have h := OrderedReadyStep.ofUpdate hnodup hloop hbelow (Or.inl (rfl : ([] : List Call) = []))
      rwa [List.append_nil] at h
    · rename_i hstrategy
      have hru : set.updateStrategyType = .rollingUpdate := by
        cases h : set.updateStrategyType
        · rfl
        · exact absurd h hstrategy
      exact OrderedReadyStep.ofUpdate hnodup hloop hbelow (.inr ⟨hru, rfl⟩)

theorem updateStatefulSet_orderedReady_scaleDown :
    (⟨3, .orderedReady, .rollingUpdate, some 0, 0, false⟩ : StatefulSet).podManagementPolicy =
        .orderedReady ∧
      (([⟨0, .running, true, false, "a", true, true⟩, ⟨1, .running, true, false, "a", true, true⟩,
        ⟨2, .running, true, false, "a", true, true⟩, ⟨3, .running, true, false, "a", true, true⟩] :
          List Pod).map (·.ordinal)).Nodup ∧
      OrderedReadyStep ⟨3, .orderedReady, .rollingUpdate, some 0, 0, false⟩ "b"
        [⟨0, .running, true, false, "a", true, true⟩, ⟨1, .running, true, false, "a", true, true⟩,
          ⟨2, .running, true, false, "a", true, true⟩, ⟨3, .running, true, false, "a", true, true⟩]
        (updateStatefulSet ⟨3, .orderedReady, .rollingUpdate, some 0, 0, false⟩ "a" "b" (fun _ => true)
          [⟨0, .running, true, false, "a", true, true⟩, ⟨1, .running, true, false, "a", true, true⟩,
            ⟨2, .running, true, false, "a", true, true⟩, ⟨3, .running, true, false, "a", true, true⟩]) :=
  ⟨rfl, by decide, updateStatefulSet_orderedReady rfl (by decide)⟩

end Step

end Kubernetes.StatefulSetController
