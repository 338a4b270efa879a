import Mathlib
import Kubernetes.Deployment.Rolling

/-!
# The budgets of a rolling update

What one `rolloutRolling` step does to the replica counts. A step's requests are applied in order
(`afterScales`): the last request naming a ReplicaSet sets its `spec.replicas`.

`rolloutRolling_withinBudgets`: for a Deployment validation accepts and ReplicaSets whose status
is consistent (`Valid`), when the `int32` sums the step computes do not wrap (`NoOverflow`), the
step keeps to `WithinBudgets`: no negative size, the new ReplicaSet never asked for more than
`replicas`, no more than `replicas + MaxSurge` pods unless there were already, and at most the
available pods beyond `MinAvailable` lost, when the ReplicaSet controller removes unavailable pods
first. Without `NoOverflow` a size can be negative (`rolloutRolling_negative_of_overflow`).

The proof follows the step:
* the new ReplicaSet is resized, down to `replicas` or up within the surge
  (`reconcileNewReplicaSet_spec`, through `newRSNewReplicas_toInt`);
* or the old ones are lowered (`reconcileOldReplicaSets_spec`): the cleanup loop at most to their
  available replicas, handing on the ReplicaSets as it leaves them (`cleanupLoop_spec`), then the
  scale-down loop by at most its budget in all (`scaleDownLoop_spec`).
-/

namespace Kubernetes.DeploymentController

/-- `spec.replicas` of the ReplicaSet `name`, `replicas` before, once the requests of `plan` have
been applied in order. -/
def afterScales (plan : List Scale) (name : String) (replicas : Int32) : Int32 :=
  plan.foldl (fun r s => if s.name = name then s.newScale else r) replicas

/-- What a ReplicaSet's status says of it: no more available replicas than it has, and none fewer
than zero. -/
def ReplicaSet.Valid (rs : ReplicaSet) : Prop :=
  0 ≤ rs.availableReplicas.toInt ∧ rs.availableReplicas.toInt ≤ rs.replicas.toInt

instance : DecidablePred ReplicaSet.Valid := fun rs =>
  inferInstanceAs (Decidable (0 ≤ rs.availableReplicas.toInt ∧
    rs.availableReplicas.toInt ≤ rs.replicas.toInt))

section AfterScales

variable {p q : List Scale} {name : String} {r : Int32}

@[simp] theorem afterScales_nil : afterScales [] name r = r := rfl

theorem afterScales_append :
    afterScales (p ++ q) name r = afterScales q name (afterScales p name r) :=
  List.foldl_append

/-- Requests for other ReplicaSets leave this one as it is. -/
theorem afterScales_of_forall_ne (h : ∀ s ∈ p, s.name ≠ name) : afterScales p name r = r := by
  induction p generalizing r with
  | nil => rfl
  | cons s p ih =>
    have hs : s.name ≠ name := h s List.mem_cons_self
    simp only [afterScales, List.foldl_cons, hs, if_false]
    exact ih fun s' hs' => h s' (List.mem_cons_of_mem s hs')

theorem mem_scaleReplicaSetAndRecordEvent {rs : ReplicaSet} {newScale : Int32} {s : Scale}
    (h : s ∈ scaleReplicaSetAndRecordEvent rs newScale) : s = ⟨rs.name, newScale⟩ := by
  unfold scaleReplicaSetAndRecordEvent at h
  split at h
  · simp at h
  · simpa using h

/-- A loop that scales `rs` and then goes on with `rest` scales only ReplicaSets of the list. -/
theorem name_mem_of_mem_scaleReplicaSetAndRecordEvent_append {rs : ReplicaSet}
    {rest : List ReplicaSet} {newScale : Int32} {later : List Scale} {s : Scale}
    (h : s ∈ scaleReplicaSetAndRecordEvent rs newScale ++ later)
    (hlater : s ∈ later → s.name ∈ rest.map (·.name)) : s.name ∈ (rs :: rest).map (·.name) := by
  rcases List.mem_append.mp h with h | h
  · rw [mem_scaleReplicaSetAndRecordEvent h]
    exact List.mem_cons_self
  · exact List.mem_cons_of_mem _ (hlater h)

/-- Whether or not it sends a request, `scaleReplicaSetAndRecordEvent` leaves the ReplicaSet at
the new size. -/
@[simp] theorem afterScales_scaleReplicaSetAndRecordEvent (rs : ReplicaSet) (newScale : Int32) :
    afterScales (scaleReplicaSetAndRecordEvent rs newScale) rs.name rs.replicas = newScale := by
  unfold scaleReplicaSetAndRecordEvent
  split
  · rename_i h
    exact h
  · simp [afterScales]

end AfterScales

/-- A name of a list of ReplicaSets with distinct names is none of the others'. -/
theorem name_not_mem_of_nodup {rs : ReplicaSet} {rest : List ReplicaSet}
    (h : ((rs :: rest).map (·.name)).Nodup) : rs.name ∉ rest.map (·.name) := by
  rw [List.map_cons, List.nodup_cons] at h
  exact h.1

theorem intMin_toInt (a b : Int32) : (intMin a b).toInt = min a.toInt b.toInt := by
  unfold intMin
  split
  · rename_i h
    rw [Int32.lt_iff_toInt_lt] at h
    omega
  · rename_i h
    rw [Int32.lt_iff_toInt_lt] at h
    omega

/-! ## The cleanup loop -/

section Cleanup

variable {m : Int32}

theorem cleanupLoop_name_mem {t : Int32} {rss : List ReplicaSet} {s : Scale}
    (h : s ∈ (cleanupLoop m t rss).1) : s.name ∈ rss.map (·.name) := by
  induction rss generalizing t with
  | nil => simp [cleanupLoop] at h
  | cons rs rest ih =>
    unfold cleanupLoop at h
    dsimp only at h
    split at h
    · simp at h
    split at h
    · exact List.mem_cons_of_mem _ (ih h)
    split at h
    · exact List.mem_cons_of_mem _ (ih h)
    split at h
    · simp at h
    exact name_mem_of_mem_scaleReplicaSetAndRecordEvent_append h ih

/-- The arithmetic of one ReplicaSet of the cleanup loop: below the budget nothing wraps. -/
theorem cleanupLoop_step_toInt {t : Int32} {rs : ReplicaSet} (hrs : rs.Valid)
    (ht : 0 ≤ t.toInt) (hlt : t.toInt < m.toInt) :
    (intMin (m - t) (rs.replicas - rs.availableReplicas)).toInt =
        min (m.toInt - t.toInt) (rs.replicas.toInt - rs.availableReplicas.toInt) ∧
      (rs.replicas - intMin (m - t) (rs.replicas - rs.availableReplicas)).toInt =
        rs.replicas.toInt - (intMin (m - t) (rs.replicas - rs.availableReplicas)).toInt ∧
      (t + intMin (m - t) (rs.replicas - rs.availableReplicas)).toInt =
        t.toInt + (intMin (m - t) (rs.replicas - rs.availableReplicas)).toInt := by
  have hm := Int32.toInt_lt m
  have hR := Int32.toInt_lt rs.replicas
  have hmt : (m - t).toInt = m.toInt - t.toInt := Go.int32_toInt_sub (by omega) (by omega)
  have hRA : (rs.replicas - rs.availableReplicas).toInt =
      rs.replicas.toInt - rs.availableReplicas.toInt :=
    Go.int32_toInt_sub (by unfold ReplicaSet.Valid at hrs; omega) (by unfold ReplicaSet.Valid at hrs; omega)
  have hc : (intMin (m - t) (rs.replicas - rs.availableReplicas)).toInt =
      min (m.toInt - t.toInt) (rs.replicas.toInt - rs.availableReplicas.toInt) := by
    rw [intMin_toInt, hmt, hRA]
  unfold ReplicaSet.Valid at hrs
  exact ⟨hc, Go.int32_toInt_sub (by omega) (by omega), Go.int32_toInt_add (by omega) (by omega)⟩

/-- The cleanup loop does not fail while what it has scaled down is non-negative: it lowers each
ReplicaSet at most to its available replicas, by requests that are never negative, and hands on the
ReplicaSets as its requests leave them. -/
theorem cleanupLoop_spec {t : Int32} {rss : List ReplicaSet} (ht : 0 ≤ t.toInt)
    (hrss : ∀ rs ∈ rss, rs.Valid) (hnodup : (rss.map (·.name)).Nodup) :
    (∃ t', (cleanupLoop m t rss).2 = some (rss.map fun rs =>
        { rs with replicas := afterScales (cleanupLoop m t rss).1 rs.name rs.replicas }, t')) ∧
      (∀ s ∈ (cleanupLoop m t rss).1, 0 ≤ s.newScale.toInt) ∧
      ∀ rs ∈ rss, rs.availableReplicas.toInt ≤
          (afterScales (cleanupLoop m t rss).1 rs.name rs.replicas).toInt ∧
        (afterScales (cleanupLoop m t rss).1 rs.name rs.replicas).toInt ≤ rs.replicas.toInt := by
  induction rss generalizing t with
  | nil => simp [cleanupLoop]
  | cons rs rest ih =>
    have hrs := hrss rs List.mem_cons_self
    have hrest : ∀ rs ∈ rest, rs.Valid := fun r hr => hrss r (List.mem_cons_of_mem rs hr)
    have hnot := name_not_mem_of_nodup hnodup
    have hnodup' : (rest.map (·.name)).Nodup := (List.nodup_cons.mp hnodup).2
    have hframe : ∀ {t'}, afterScales (cleanupLoop m t' rest).1 rs.name rs.replicas = rs.replicas :=
      afterScales_of_forall_ne fun s hs heq => hnot (heq ▸ cleanupLoop_name_mem hs)
    by_cases hstop : m ≤ t
    · -- the budget is spent: no request, the list is handed on as it is
      simp only [cleanupLoop, GE.ge, hstop, if_true, afterScales_nil, List.not_mem_nil,
        false_imp_iff, implies_true, true_and]
      refine ⟨⟨t, ?_⟩, fun r hr => ⟨(hrss r hr).2, le_refl _⟩⟩
      simp
    have hlt : t.toInt < m.toInt := by
      rw [Int32.le_iff_toInt_le] at hstop
      omega
    by_cases hskip : rs.replicas = 0 ∨ rs.replicas = rs.availableReplicas
    · -- nothing to clean up in `rs`: the loop goes on with the same budget
      obtain ⟨⟨t', ht'⟩, hnn, hbounds⟩ := ih ht hrest hnodup'
      have hcall : cleanupLoop m t (rs :: rest) = ((cleanupLoop m t rest).1,
          (cleanupLoop m t rest).2.map fun r => (rs :: r.1, r.2)) := by
        rcases hskip with h | h <;> simp [cleanupLoop, hstop, h]
      rw [hcall]
      refine ⟨⟨t', ?_⟩, hnn, ?_⟩
      · rw [ht', List.map_cons, hframe]
        rfl
      · rintro r (_ | ⟨_, hr⟩)
        · rw [hframe]
          exact ⟨hrs.2, le_refl _⟩
        · exact hbounds r hr
    rw [not_or] at hskip
    obtain ⟨hc, hnew, htc⟩ := cleanupLoop_step_toInt hrs ht hlt
    set c := intMin (m - t) (rs.replicas - rs.availableReplicas)
    have hcpos : 0 < c.toInt := by
      have hne : rs.replicas.toInt ≠ rs.availableReplicas.toInt := fun h => hskip.2 (Int32.toInt_inj.mp h)
      unfold ReplicaSet.Valid at hrs
      omega
    have hle : ¬ rs.replicas - c > rs.replicas := by
      rw [GT.gt, Int32.lt_iff_toInt_lt]
      omega
    obtain ⟨⟨t', ht'⟩, hnn, hbounds⟩ := ih (t := t + c) (by omega) hrest hnodup'
    have hcall : cleanupLoop m t (rs :: rest) =
        (scaleReplicaSetAndRecordEvent rs (rs.replicas - c) ++ (cleanupLoop m (t + c) rest).1,
          (cleanupLoop m (t + c) rest).2.map
            fun r => ({ rs with replicas := rs.replicas - c } :: r.1, r.2)) := by
      simp only [cleanupLoop, GE.ge, hstop, if_false, hskip.1, hskip.2]
      exact if_neg hle
    have hother : ∀ r ∈ rest, afterScales (scaleReplicaSetAndRecordEvent rs (rs.replicas - c) ++
        (cleanupLoop m (t + c) rest).1) r.name r.replicas =
          afterScales (cleanupLoop m (t + c) rest).1 r.name r.replicas := by
      intro r hr
      have hne : ∀ s ∈ scaleReplicaSetAndRecordEvent rs (rs.replicas - c), s.name ≠ r.name := by
        intro s hs heq
        have hname : rs.name = r.name := by rw [mem_scaleReplicaSetAndRecordEvent hs] at heq; exact heq
        rw [hname] at hnot
        exact hnot (List.mem_map_of_mem hr)
      rw [afterScales_append, afterScales_of_forall_ne hne]
    have hself : afterScales (scaleReplicaSetAndRecordEvent rs (rs.replicas - c) ++
        (cleanupLoop m (t + c) rest).1) rs.name rs.replicas = rs.replicas - c := by
      rw [afterScales_append, afterScales_scaleReplicaSetAndRecordEvent]
      exact afterScales_of_forall_ne fun s hs heq => hnot (heq ▸ cleanupLoop_name_mem hs)
    rw [hcall]
    refine ⟨⟨t', ?_⟩, ?_, ?_⟩
    · rw [ht', Option.map_some, List.map_cons, hself]
      simp only [Option.some.injEq, Prod.mk.injEq, List.cons.injEq, true_and, and_true]
      exact List.map_congr_left fun r hr => by rw [hother r hr]
    · intro s hs
      rcases List.mem_append.mp hs with hs | hs
      · rw [mem_scaleReplicaSetAndRecordEvent hs]
        unfold ReplicaSet.Valid at hrs
        dsimp only
        omega
      · exact hnn s hs
    · rintro r (_ | ⟨_, hr⟩)
      · rw [hself]
        unfold ReplicaSet.Valid at hrs
        omega
      · rw [hother r hr]
        exact hbounds r hr

end Cleanup

/-! ## The scale-down loop -/

theorem scaleDownLoop_name_mem {T u : Int32} {rss : List ReplicaSet} {s : Scale}
    (h : s ∈ scaleDownLoop T u rss) : s.name ∈ rss.map (·.name) := by
  induction rss generalizing u with
  | nil => simp [scaleDownLoop] at h
  | cons rs rest ih =>
    unfold scaleDownLoop at h
    dsimp only at h
    split at h
    · simp at h
    split at h
    · exact List.mem_cons_of_mem _ (ih h)
    split at h
    · simp at h
    exact name_mem_of_mem_scaleReplicaSetAndRecordEvent_append h ih

/-- The arithmetic of one ReplicaSet of the scale-down loop: below the budget nothing wraps. -/
theorem scaleDownLoop_step_toInt {T u : Int32} {rs : ReplicaSet} (hR : 0 ≤ rs.replicas.toInt)
    (hu : 0 ≤ u.toInt) (hlt : u.toInt < T.toInt) :
    (intMin rs.replicas (T - u)).toInt = min rs.replicas.toInt (T.toInt - u.toInt) ∧
      (rs.replicas - intMin rs.replicas (T - u)).toInt =
        rs.replicas.toInt - (intMin rs.replicas (T - u)).toInt ∧
      (u + intMin rs.replicas (T - u)).toInt = u.toInt + (intMin rs.replicas (T - u)).toInt := by
  have hT := Int32.toInt_lt T
  have hR' := Int32.toInt_lt rs.replicas
  have hTu : (T - u).toInt = T.toInt - u.toInt := Go.int32_toInt_sub (by omega) (by omega)
  have hc : (intMin rs.replicas (T - u)).toInt = min rs.replicas.toInt (T.toInt - u.toInt) := by
    rw [intMin_toInt, hTu]
  exact ⟨hc, Go.int32_toInt_sub (by omega) (by omega), Go.int32_toInt_add (by omega) (by omega)⟩

/-- The scale-down loop lowers the ReplicaSets, never below zero, by at most what is left of its
budget in all. -/
theorem scaleDownLoop_spec {T u : Int32} {rss : List ReplicaSet} (hu : 0 ≤ u.toInt)
    (hrss : ∀ rs ∈ rss, 0 ≤ rs.replicas.toInt) (hnodup : (rss.map (·.name)).Nodup) :
    (∀ s ∈ scaleDownLoop T u rss, 0 ≤ s.newScale.toInt) ∧
      (∀ rs ∈ rss, 0 ≤ (afterScales (scaleDownLoop T u rss) rs.name rs.replicas).toInt ∧
        (afterScales (scaleDownLoop T u rss) rs.name rs.replicas).toInt ≤ rs.replicas.toInt) ∧
      (rss.map fun rs => rs.replicas.toInt -
        (afterScales (scaleDownLoop T u rss) rs.name rs.replicas).toInt).sum ≤
          max 0 (T.toInt - u.toInt) := by
  induction rss generalizing u with
  | nil => simp [scaleDownLoop]
  | cons rs rest ih =>
    have hR := hrss rs List.mem_cons_self
    have hrest : ∀ rs ∈ rest, 0 ≤ rs.replicas.toInt := fun r hr => hrss r (List.mem_cons_of_mem rs hr)
    have hnot := name_not_mem_of_nodup hnodup
    have hnodup' : (rest.map (·.name)).Nodup := (List.nodup_cons.mp hnodup).2
    have hframe : ∀ {u' r}, afterScales (scaleDownLoop T u' rest) rs.name r = r :=
      afterScales_of_forall_ne fun s hs heq => hnot (heq ▸ scaleDownLoop_name_mem hs)
    by_cases hstop : T ≤ u
    · -- the budget is spent
      have hcall : scaleDownLoop T u (rs :: rest) = [] := by simp [scaleDownLoop, hstop]
      rw [hcall]
      refine ⟨by simp, fun r hr => ⟨hrss r hr, le_refl _⟩, ?_⟩
      simp
    have hlt : u.toInt < T.toInt := by
      rw [Int32.le_iff_toInt_le] at hstop
      omega
    obtain ⟨hnn, hbounds, hsum⟩ := ih hu hrest hnodup'
    by_cases h0 : rs.replicas = 0
    · -- an empty ReplicaSet is skipped
      have hcall : scaleDownLoop T u (rs :: rest) = scaleDownLoop T u rest := by
        simp [scaleDownLoop, hstop, h0]
      rw [hcall]
      refine ⟨hnn, ?_, ?_⟩
      · rintro r (_ | ⟨_, hr⟩)
        · rw [hframe]
          exact ⟨hR, le_refl _⟩
        · exact hbounds r hr
      · rw [List.map_cons, List.sum_cons, hframe]
        omega
    obtain ⟨hc, hnew, huc⟩ := scaleDownLoop_step_toInt hR hu hlt
    set c := intMin rs.replicas (T - u)
    have hcpos : 0 < c.toInt := by
      have hne : rs.replicas.toInt ≠ 0 := fun h => h0 (Int32.toInt_inj.mp (by simpa using h))
      omega
    have hle : ¬ rs.replicas - c > rs.replicas := by
      rw [GT.gt, Int32.lt_iff_toInt_lt]
      omega
    obtain ⟨hnn, hbounds, hsum⟩ := ih (u := u + c) (by omega) hrest hnodup'
    have hcall : scaleDownLoop T u (rs :: rest) =
        scaleReplicaSetAndRecordEvent rs (rs.replicas - c) ++ scaleDownLoop T (u + c) rest := by
      simp only [scaleDownLoop, GE.ge, hstop, if_false, h0]
      exact if_neg hle
    have hother : ∀ r ∈ rest, afterScales (scaleReplicaSetAndRecordEvent rs (rs.replicas - c) ++
        scaleDownLoop T (u + c) rest) r.name r.replicas =
          afterScales (scaleDownLoop T (u + c) rest) r.name r.replicas := by
      intro r hr
      have hne : ∀ s ∈ scaleReplicaSetAndRecordEvent rs (rs.replicas - c), s.name ≠ r.name := by
        intro s hs heq
        have hname : rs.name = r.name := by rw [mem_scaleReplicaSetAndRecordEvent hs] at heq; exact heq
        rw [hname] at hnot
        exact hnot (List.mem_map_of_mem hr)
      rw [afterScales_append, afterScales_of_forall_ne hne]
    have hself : afterScales (scaleReplicaSetAndRecordEvent rs (rs.replicas - c) ++
        scaleDownLoop T (u + c) rest) rs.name rs.replicas = rs.replicas - c := by
      rw [afterScales_append, afterScales_scaleReplicaSetAndRecordEvent, hframe]
    rw [hcall]
    refine ⟨?_, ?_, ?_⟩
    · intro s hs
      rcases List.mem_append.mp hs with hs | hs
      · rw [mem_scaleReplicaSetAndRecordEvent hs]
        dsimp only
        omega
      · exact hnn s hs
    · rintro r (_ | ⟨_, hr⟩)
      · rw [hself]
        omega
      · rw [hother r hr]
        exact hbounds r hr
    · rw [List.map_cons, List.sum_cons, hself, List.map_congr_left fun r hr => by rw [hother r hr]]
      omega

/-! ## A Deployment and its ReplicaSets -/

/-- What validation accepts of `maxSurge` and `maxUnavailable`: no negative value. -/
def IntOrString.Nonneg : IntOrString → Prop
  | .int intVal => 0 ≤ intVal.toInt
  | .percent value => 0 ≤ value

/-- What validation accepts of `maxUnavailable` beyond that: at most `100%`. -/
def IntOrString.NotMoreThan100Percent : IntOrString → Prop
  | .int _ => True
  | .percent value => value ≤ 100

instance : DecidablePred IntOrString.Nonneg
  | .int intVal => inferInstanceAs (Decidable (0 ≤ intVal.toInt))
  | .percent value => inferInstanceAs (Decidable (0 ≤ value))

instance : DecidablePred IntOrString.NotMoreThan100Percent
  | .int _ => inferInstanceAs (Decidable True)
  | .percent value => inferInstanceAs (Decidable (value ≤ 100))

/-- A Deployment as validation accepts it, and its ReplicaSets as their status has them, with
distinct names. -/
structure Valid (d : Deployment) (newRS : ReplicaSet) (oldRSs : List ReplicaSet) : Prop where
  replicas_nonneg : 0 ≤ d.replicas.toInt
  maxSurge_nonneg : d.maxSurge.Nonneg
  maxUnavailable_nonneg : d.maxUnavailable.Nonneg
  maxUnavailable_le : d.maxUnavailable.NotMoreThan100Percent
  rs_valid : ∀ rs ∈ newRS :: oldRSs, rs.Valid
  names_nodup : ((newRS :: oldRSs).map (·.name)).Nodup

/-- The sum of the `spec.replicas` of some ReplicaSets. -/
def sumReplicas (rss : List ReplicaSet) : ℤ := (rss.map fun rs => rs.replicas.toInt).sum

/-- The sum of the `status.availableReplicas` of some ReplicaSets. -/
def sumAvailable (rss : List ReplicaSet) : ℤ := (rss.map fun rs => rs.availableReplicas.toInt).sum

/-- The `int32` sums a step computes do not wrap: the replicas of all the ReplicaSets, and
`replicas + maxSurge`. -/
structure NoOverflow (d : Deployment) (newRS : ReplicaSet) (oldRSs : List ReplicaSet) : Prop where
  sumReplicas_lt : sumReplicas (newRS :: oldRSs) < 2 ^ 31
  surge_lt : d.replicas.toInt + getScaledValueFromIntOrPercent d.maxSurge d.replicas.toInt true < 2 ^ 31

section Deployment

variable {d : Deployment} {newRS : ReplicaSet} {oldRSs : List ReplicaSet}

theorem sumReplicas_append_singleton (rss : List ReplicaSet) (rs : ReplicaSet) :
    sumReplicas (rss ++ [rs]) = sumReplicas (rs :: rss) := by
  simp [sumReplicas, Int.add_comm]

theorem sumAvailable_append_singleton (rss : List ReplicaSet) (rs : ReplicaSet) :
    sumAvailable (rss ++ [rs]) = sumAvailable (rs :: rss) := by
  simp [sumAvailable, Int.add_comm]

theorem sumAvailable_le_sumReplicas {rss : List ReplicaSet} (h : ∀ rs ∈ rss, rs.Valid) :
    sumAvailable rss ≤ sumReplicas rss :=
  List.sum_le_sum fun rs hrs => (h rs hrs).2

theorem sumAvailable_nonneg {rss : List ReplicaSet} (h : ∀ rs ∈ rss, rs.Valid) :
    0 ≤ sumAvailable rss :=
  List.sum_nonneg (by simpa using fun rs hrs => (h rs hrs).1)

/-- `GetReplicaCountForReplicaSets` adds up exactly while the sum fits. -/
theorem getReplicaCountForReplicaSets_toInt {rss : List ReplicaSet} (h : ∀ rs ∈ rss, rs.Valid)
    (hlt : sumReplicas rss < 2 ^ 31) :
    (getReplicaCountForReplicaSets rss).toInt = sumReplicas rss := by
  have hfold := Go.int32_toInt_foldl_add (·.replicas) rss 0
    (fun rs hrs => le_trans (h rs hrs).1 (h rs hrs).2) (by simp) (by simpa [sumReplicas] using hlt)
  simp only [Int32.toInt_zero, zero_add] at hfold
  exact hfold

theorem getAvailableReplicaCountForReplicaSets_toInt {rss : List ReplicaSet}
    (h : ∀ rs ∈ rss, rs.Valid) (hlt : sumReplicas rss < 2 ^ 31) :
    (getAvailableReplicaCountForReplicaSets rss).toInt = sumAvailable rss := by
  have hle := sumAvailable_le_sumReplicas h
  have hfold := Go.int32_toInt_foldl_add (·.availableReplicas) rss 0 (fun rs hrs => (h rs hrs).1)
    (by simp) (by simp only [sumAvailable] at hle; simp; omega)
  simp only [Int32.toInt_zero, zero_add] at hfold
  exact hfold

/-- The surge `NewRSNewReplicas` scales is never negative. -/
theorem surge_nonneg (hv : Valid d newRS oldRSs) :
    0 ≤ getScaledValueFromIntOrPercent d.maxSurge d.replicas.toInt true := by
  have hR := hv.replicas_nonneg
  have hs := hv.maxSurge_nonneg
  unfold getScaledValueFromIntOrPercent
  cases hm : d.maxSurge with
  | int intVal =>
    rw [hm] at hs
    exact hs
  | percent value =>
    rw [hm] at hs
    have : 0 ≤ value * d.replicas.toInt := Int.mul_nonneg hs hR
    simp only [if_true]
    omega

theorem maxSurge_toInt (hv : Valid d newRS oldRSs) (hno : NoOverflow d newRS oldRSs) :
    (maxSurge d).toInt = getScaledValueFromIntOrPercent d.maxSurge d.replicas.toInt true := by
  have h0 := surge_nonneg hv
  have hlt := hno.surge_lt
  have hR := hv.replicas_nonneg
  exact Int32.toInt_ofInt_of_le (by omega) (by omega)

/-- The unavailability budget validation accepts, scaled to `desired` replicas, lies in
`0 .. 2 ^ 31`, so its conversion to `int32` keeps it. -/
theorem scaledUnavailable_bounds {maxUnavailable : IntOrString} {desired : Int32}
    (hd : 0 ≤ desired.toInt) (hu : maxUnavailable.Nonneg)
    (hle : maxUnavailable.NotMoreThan100Percent) :
    0 ≤ getScaledValueFromIntOrPercent maxUnavailable desired.toInt false ∧
      getScaledValueFromIntOrPercent maxUnavailable desired.toInt false < 2 ^ 31 := by
  have hlt := Int32.toInt_lt desired
  unfold getScaledValueFromIntOrPercent
  cases maxUnavailable with
  | int intVal => exact ⟨hu, Int32.toInt_lt intVal⟩
  | percent value =>
    have h1 : 0 ≤ value * desired.toInt := Int.mul_nonneg hu hd
    have h2 : value * desired.toInt ≤ 100 * desired.toInt := Int.mul_le_mul_of_nonneg_right hle hd
    simp only [Bool.false_eq_true, if_false]
    omega

/-- What `ResolveFenceposts` allows to be unavailable is never negative. -/
theorem resolveFenceposts_snd_nonneg {maxSurge maxUnavailable : IntOrString} {desired : Int32}
    (hd : 0 ≤ desired.toInt) (hu : maxUnavailable.Nonneg) (hle : maxUnavailable.NotMoreThan100Percent) :
    0 ≤ (resolveFenceposts maxSurge maxUnavailable desired).2.toInt := by
  have hrange := scaledUnavailable_bounds hd hu hle
  unfold resolveFenceposts
  dsimp only
  split <;> rw [Int32.toInt_ofInt_of_le (by omega) (by omega)] <;> omega

/-- `MaxUnavailable` is between zero and the number of replicas. -/
theorem maxUnavailable_toInt_bounds (hv : Valid d newRS oldRSs) :
    0 ≤ (maxUnavailable d).toInt ∧ (maxUnavailable d).toInt ≤ d.replicas.toInt := by
  have hR := hv.replicas_nonneg
  have h0 : 0 ≤ (resolveFenceposts d.maxSurge d.maxUnavailable d.replicas).2.toInt :=
    resolveFenceposts_snd_nonneg hR hv.maxUnavailable_nonneg hv.maxUnavailable_le
  unfold maxUnavailable
  split
  · simp [hR]
  · dsimp only
    split
    · rename_i h
      omega
    · rename_i h
      rw [GT.gt, Int32.lt_iff_toInt_lt] at h
      omega

theorem minAvailable_toInt (hv : Valid d newRS oldRSs) :
    (minAvailable d).toInt = d.replicas.toInt - (maxUnavailable d).toInt := by
  have := maxUnavailable_toInt_bounds hv
  have hR := Int32.toInt_lt d.replicas
  exact Go.int32_toInt_sub (by omega) (by omega)

theorem Valid.rs_valid_append (hv : Valid d newRS oldRSs) : ∀ rs ∈ oldRSs ++ [newRS], rs.Valid := by
  intro rs hrs
  apply hv.rs_valid
  rcases List.mem_append.mp hrs with h | h
  · exact List.mem_cons_of_mem _ h
  · rw [List.mem_singleton.mp h]
    exact List.mem_cons_self

theorem Valid.replicas_le_sumReplicas (hv : Valid d newRS oldRSs) :
    newRS.replicas.toInt ≤ sumReplicas (newRS :: oldRSs) := by
  have : 0 ≤ sumReplicas oldRSs := le_trans (sumAvailable_nonneg fun rs hrs =>
    hv.rs_valid rs (List.mem_cons_of_mem _ hrs)) (sumAvailable_le_sumReplicas fun rs hrs =>
    hv.rs_valid rs (List.mem_cons_of_mem _ hrs))
  simp only [sumReplicas, List.map_cons, List.sum_cons] at this ⊢
  omega

/-- `NewRSNewReplicas` grows the new ReplicaSet until all of them hold `replicas + maxSurge`, and
no further than `replicas`; nothing it computes wraps. -/
theorem newRSNewReplicas_toInt (hv : Valid d newRS oldRSs) (hno : NoOverflow d newRS oldRSs)
    (hlt : newRS.replicas.toInt < d.replicas.toInt) :
    (newRSNewReplicas d (oldRSs ++ [newRS]) newRS).toInt =
      if d.replicas.toInt + (maxSurge d).toInt ≤ sumReplicas (newRS :: oldRSs) then
        newRS.replicas.toInt
      else newRS.replicas.toInt + min (d.replicas.toInt + (maxSurge d).toInt -
        sumReplicas (newRS :: oldRSs)) (d.replicas.toInt - newRS.replicas.toInt) := by
  have hS := maxSurge_toInt hv hno
  have hS0 := surge_nonneg hv
  have hnew := hv.replicas_le_sumReplicas
  have hnew0 := le_trans (hv.rs_valid newRS List.mem_cons_self).1 (hv.rs_valid newRS List.mem_cons_self).2
  have hsumlt := hno.sumReplicas_lt
  have hsurge := hno.surge_lt
  have hcount : (getReplicaCountForReplicaSets (oldRSs ++ [newRS])).toInt =
      sumReplicas (newRS :: oldRSs) := by
    rw [getReplicaCountForReplicaSets_toInt hv.rs_valid_append (by rwa [sumReplicas_append_singleton]),
      sumReplicas_append_singleton]
  have hmax : (d.replicas + maxSurge d).toInt = d.replicas.toInt + (maxSurge d).toInt :=
    Go.int32_toInt_add (by omega) (by omega)
  unfold newRSNewReplicas
  dsimp only
  change Int32.toInt (if getReplicaCountForReplicaSets (oldRSs ++ [newRS]) ≥ d.replicas + maxSurge d
    then newRS.replicas else newRS.replicas + intMin (d.replicas + maxSurge d -
      getReplicaCountForReplicaSets (oldRSs ++ [newRS])) (d.replicas - newRS.replicas)) = _
  by_cases hge : d.replicas.toInt + (maxSurge d).toInt ≤ sumReplicas (newRS :: oldRSs)
  · rw [if_pos (by rw [GE.ge, Int32.le_iff_toInt_le, hcount, hmax]; exact hge), if_pos hge]
  · rw [if_neg (by rw [GE.ge, Int32.le_iff_toInt_le, hcount, hmax]; exact hge), if_neg hge]
    have hup : (d.replicas + maxSurge d - getReplicaCountForReplicaSets (oldRSs ++ [newRS])).toInt =
        d.replicas.toInt + (maxSurge d).toInt - sumReplicas (newRS :: oldRSs) := by
      rw [Go.int32_toInt_sub (by omega) (by omega), hmax, hcount]
    have hroom : (d.replicas - newRS.replicas).toInt = d.replicas.toInt - newRS.replicas.toInt :=
      Go.int32_toInt_sub (by omega) (by omega)
    have hmin := intMin_toInt (d.replicas + maxSurge d - getReplicaCountForReplicaSets (oldRSs ++ [newRS]))
      (d.replicas - newRS.replicas)
    rw [hup, hroom] at hmin
    rw [Go.int32_toInt_add (by rw [hmin]; omega) (by rw [hmin]; omega), hmin]

/-- The first half of a step: no request, or one for the new ReplicaSet, that either brings it
down to `replicas`, or grows it, within the surge and at most to `replicas`. -/
theorem reconcileNewReplicaSet_spec (hv : Valid d newRS oldRSs) (hno : NoOverflow d newRS oldRSs) :
    reconcileNewReplicaSet (oldRSs ++ [newRS]) newRS d = [] ∨
      ∃ t : Int32, reconcileNewReplicaSet (oldRSs ++ [newRS]) newRS d = [⟨newRS.name, t⟩] ∧
        ((t = d.replicas ∧ d.replicas.toInt < newRS.replicas.toInt) ∨
          (newRS.replicas.toInt < t.toInt ∧ t.toInt ≤ d.replicas.toInt ∧
            sumReplicas (newRS :: oldRSs) - newRS.replicas.toInt + t.toInt ≤
              d.replicas.toInt + (maxSurge d).toInt)) := by
  unfold reconcileNewReplicaSet scaleReplicaSetAndRecordEvent
  split
  · exact .inl rfl
  rename_i hne
  have hne' : newRS.replicas.toInt ≠ d.replicas.toInt := fun h => hne (Int32.toInt_inj.mp h)
  split
  · -- more replicas than wanted: down to `replicas`
    rename_i hgt
    rw [GT.gt, Int32.lt_iff_toInt_lt] at hgt
    exact .inr ⟨d.replicas, rfl, .inl ⟨rfl, hgt⟩⟩
  rename_i hngt
  rw [GT.gt, Int32.lt_iff_toInt_lt] at hngt
  have hnew := newRSNewReplicas_toInt hv hno (by omega)
  split
  · exact .inl rfl
  rename_i hsame
  refine .inr ⟨_, rfl, .inr ?_⟩
  split at hnew
  · exact absurd (Int32.toInt_inj.mp hnew).symm hsame
  · omega

/-- A sum over the active ReplicaSets is the sum over all of them, when the inactive ones add
nothing. -/
theorem sum_filterActiveReplicaSets {f : ReplicaSet → ℤ} {l : List ReplicaSet}
    (hf : ∀ rs ∈ l, ¬ rs.replicas > 0 → f rs = 0) :
    ((filterActiveReplicaSets l).map f).sum = (l.map f).sum := by
  induction l with
  | nil => rfl
  | cons rs l ih =>
    have ih := ih fun r hr => hf r (List.mem_cons_of_mem rs hr)
    unfold filterActiveReplicaSets at ih ⊢
    rw [List.filter_cons]
    by_cases h : rs.replicas > 0
    · simp [h, ih]
    · simp [h, ih, hf rs List.mem_cons_self h]

theorem sortByCreationTimestamp_perm (l : List ReplicaSet) : (sortByCreationTimestamp l).Perm l :=
  List.perm_insertionSort _ l

/-- The old ReplicaSets the second half of a step goes through, oldest first: active ones, with
distinct names. -/
theorem mem_sortByCreationTimestamp_filterActive {l : List ReplicaSet} {rs : ReplicaSet} :
    rs ∈ sortByCreationTimestamp (filterActiveReplicaSets l) ↔ rs ∈ l ∧ rs.replicas > 0 := by
  rw [(sortByCreationTimestamp_perm _).mem_iff]
  simp [filterActiveReplicaSets]

theorem nodup_sortByCreationTimestamp_filterActive {l : List ReplicaSet}
    (h : (l.map (·.name)).Nodup) :
    ((sortByCreationTimestamp (filterActiveReplicaSets l)).map (·.name)).Nodup := by
  rw [((sortByCreationTimestamp_perm _).map _).nodup_iff]
  exact h.sublist (List.filter_sublist.map _)

/-- An inactive ReplicaSet is not among those the second half goes through. -/
theorem name_not_mem_sortByCreationTimestamp_filterActive {l : List ReplicaSet} {rs : ReplicaSet}
    (h : (l.map (·.name)).Nodup) (hrs : rs ∈ l) (hinactive : ¬ rs.replicas > 0) :
    rs.name ∉ (sortByCreationTimestamp (filterActiveReplicaSets l)).map (·.name) := by
  intro hmem
  obtain ⟨r, hr, hname⟩ := List.mem_map.mp hmem
  obtain ⟨hrl, hpos⟩ := mem_sortByCreationTimestamp_filterActive.mp hr
  have : r = rs := List.inj_on_of_nodup_map h hrl hrs hname
  exact hinactive (this ▸ hpos)

theorem scaleDownOldReplicaSetsForRollingUpdate_of_le {allRSs oldRSs : List ReplicaSet}
    (hle : getAvailableReplicaCountForReplicaSets allRSs ≤ minAvailable d) :
    scaleDownOldReplicaSetsForRollingUpdate allRSs oldRSs d = [] := by
  simp only [scaleDownOldReplicaSetsForRollingUpdate]
  exact if_pos hle

theorem scaleDownOldReplicaSetsForRollingUpdate_of_not_le {allRSs oldRSs : List ReplicaSet}
    (hgt : ¬getAvailableReplicaCountForReplicaSets allRSs ≤ minAvailable d) :
    scaleDownOldReplicaSetsForRollingUpdate allRSs oldRSs d =
      scaleDownLoop (getAvailableReplicaCountForReplicaSets allRSs - minAvailable d) 0
        (sortByCreationTimestamp oldRSs) := by
  simp only [scaleDownOldReplicaSetsForRollingUpdate]
  exact if_neg hgt

/-- `scaleDownOldReplicaSetsForRollingUpdate` lowers the old ReplicaSets, never below zero, by at
most the available pods beyond `MinAvailable` in all. -/
theorem scaleDownOldReplicaSetsForRollingUpdate_spec {rss : List ReplicaSet}
    (hmin : 0 ≤ (minAvailable d).toInt) (hrss : ∀ rs ∈ newRS :: rss, rs.Valid)
    (hnodup : (rss.map (·.name)).Nodup) (hlt : sumReplicas (newRS :: rss) < 2 ^ 31) :
    (∀ s ∈ scaleDownOldReplicaSetsForRollingUpdate (rss ++ [newRS]) rss d, 0 ≤ s.newScale.toInt) ∧
      (∀ s ∈ scaleDownOldReplicaSetsForRollingUpdate (rss ++ [newRS]) rss d,
        s.name ∈ rss.map (·.name)) ∧
      (∀ rs ∈ rss,
        0 ≤ (afterScales (scaleDownOldReplicaSetsForRollingUpdate (rss ++ [newRS]) rss d) rs.name
          rs.replicas).toInt ∧
        (afterScales (scaleDownOldReplicaSetsForRollingUpdate (rss ++ [newRS]) rss d) rs.name
          rs.replicas).toInt ≤ rs.replicas.toInt) ∧
      (rss.map fun rs => rs.replicas.toInt - (afterScales
        (scaleDownOldReplicaSetsForRollingUpdate (rss ++ [newRS]) rss d) rs.name rs.replicas).toInt).sum ≤
        max 0 (sumAvailable (newRS :: rss) - (minAvailable d).toInt) := by
  have hall : ∀ rs ∈ rss ++ [newRS], rs.Valid := fun rs hrs => hrss rs (by simpa [or_comm] using hrs)
  have hA : (getAvailableReplicaCountForReplicaSets (rss ++ [newRS])).toInt =
      sumAvailable (newRS :: rss) := by
    rw [getAvailableReplicaCountForReplicaSets_toInt hall (by rwa [sumReplicas_append_singleton]),
      sumAvailable_append_singleton]
  have hA0 := sumAvailable_nonneg hrss
  have hAlt := lt_of_le_of_lt (sumAvailable_le_sumReplicas hrss) hlt
  by_cases hle : getAvailableReplicaCountForReplicaSets (rss ++ [newRS]) ≤ minAvailable d
  · -- no available pod to spare: no request
    rw [scaleDownOldReplicaSetsForRollingUpdate_of_le hle]
    refine ⟨by simp, by simp, fun rs hrs => ?_, by simp⟩
    have hv := hrss rs (List.mem_cons_of_mem _ hrs)
    exact ⟨le_trans hv.1 hv.2, le_refl _⟩
  rw [Int32.le_iff_toInt_le, hA] at hle
  have hT : (getAvailableReplicaCountForReplicaSets (rss ++ [newRS]) - minAvailable d).toInt =
      sumAvailable (newRS :: rss) - (minAvailable d).toInt := by
    rw [Go.int32_toInt_sub (by omega) (by omega), hA]
  rw [scaleDownOldReplicaSetsForRollingUpdate_of_not_le (by rw [Int32.le_iff_toInt_le, hA]; exact hle)]
  have hperm := sortByCreationTimestamp_perm rss
  obtain ⟨hnn, hbounds, hsum⟩ := scaleDownLoop_spec
    (T := getAvailableReplicaCountForReplicaSets (rss ++ [newRS]) - minAvailable d) (u := 0)
    (by simp) (fun rs hrs => by
      have hv := hrss rs (List.mem_cons_of_mem _ (hperm.mem_iff.mp hrs))
      exact le_trans hv.1 hv.2)
    (by rwa [(hperm.map _).nodup_iff])
  refine ⟨hnn, fun s hs => (hperm.map _).mem_iff.mp (scaleDownLoop_name_mem hs),
    fun rs hrs => hbounds rs (hperm.mem_iff.mpr hrs), ?_⟩
  rw [← (hperm.map _).sum_eq]
  rw [hT, Int32.toInt_zero, Int.sub_zero] at hsum
  exact hsum

/-- What the second half of a step may do to the old ReplicaSets: lower them, never below zero,
by requests that are never negative and name one of them, losing at most `budget` available
replicas in all. -/
structure LowersOld (plan : List Scale) (oldRSs : List ReplicaSet) (budget : ℤ) : Prop where
  newScale_nonneg : ∀ s ∈ plan, 0 ≤ s.newScale.toInt
  name_mem : ∀ s ∈ plan, s.name ∈ oldRSs.map (·.name)
  after_nonneg : ∀ rs ∈ oldRSs, 0 ≤ (afterScales plan rs.name rs.replicas).toInt
  after_le : ∀ rs ∈ oldRSs, (afterScales plan rs.name rs.replicas).toInt ≤ rs.replicas.toInt
  lost_le : (oldRSs.map fun rs => rs.availableReplicas.toInt -
    min rs.availableReplicas.toInt (afterScales plan rs.name rs.replicas).toInt).sum ≤ budget

theorem LowersOld.nil {oldRSs : List ReplicaSet} {budget : ℤ} (h : ∀ rs ∈ oldRSs, rs.Valid)
    (hb : 0 ≤ budget) : LowersOld [] oldRSs budget where
  newScale_nonneg := by simp
  name_mem := by simp
  after_nonneg rs hrs := le_trans (h rs hrs).1 (h rs hrs).2
  after_le _ _ := le_refl _
  lost_le := by
    have : ∀ rs ∈ oldRSs, rs.availableReplicas.toInt -
        min rs.availableReplicas.toInt (afterScales [] rs.name rs.replicas).toInt = 0 := by
      intro rs hrs
      have := (h rs hrs).2
      simp only [afterScales_nil]
      omega
    rw [List.map_congr_left this]
    simpa using hb

/-- The second half of a step lowers the old ReplicaSets, losing at most the available pods beyond
`MinAvailable`. -/
theorem reconcileOldReplicaSets_spec (hv : Valid d newRS oldRSs) (hno : NoOverflow d newRS oldRSs) :
    LowersOld (reconcileOldReplicaSets (oldRSs ++ [newRS]) (filterActiveReplicaSets oldRSs) newRS d)
      oldRSs (max 0 (sumAvailable (newRS :: oldRSs) - (minAvailable d).toInt)) := by
  have hold : ∀ rs ∈ oldRSs, rs.Valid := fun rs hrs => hv.rs_valid rs (List.mem_cons_of_mem _ hrs)
  have holdNodup : (oldRSs.map (·.name)).Nodup := (List.nodup_cons.mp hv.names_nodup).2
  have hnil := LowersOld.nil hold (le_max_left 0 (sumAvailable (newRS :: oldRSs) - (minAvailable d).toInt))
  unfold reconcileOldReplicaSets
  dsimp only
  split
  · exact hnil
  split
  · exact hnil
  unfold cleanupUnhealthyReplicas
  generalize getReplicaCountForReplicaSets (oldRSs ++ [newRS]) - (d.replicas - maxUnavailable d) -
    (newRS.replicas - newRS.availableReplicas) = m
  set sorted := sortByCreationTimestamp (filterActiveReplicaSets oldRSs) with hsorted
  have hsortedOld : ∀ rs ∈ sorted, rs ∈ oldRSs := fun rs hrs =>
    (mem_sortByCreationTimestamp_filterActive.mp hrs).1
  have hsortedNodup := nodup_sortByCreationTimestamp_filterActive holdNodup
  have hperm := sortByCreationTimestamp_perm (filterActiveReplicaSets oldRSs)
  have hzero : ∀ rs ∈ oldRSs, ¬ rs.replicas > 0 → rs.replicas.toInt = 0 ∧
      rs.availableReplicas.toInt = 0 := by
    intro rs hrs h
    rw [GT.gt, Int32.lt_iff_toInt_lt] at h
    have := hold rs hrs
    unfold ReplicaSet.Valid at this
    simp only [Int32.toInt_zero] at h
    omega
  obtain ⟨⟨_, hcl⟩, hclNonneg, hclBounds⟩ := cleanupLoop_spec (m := m) (t := 0) (by simp)
    (fun rs hrs => hold rs (hsortedOld rs hrs)) hsortedNodup
  have hclNames : ∀ s ∈ (cleanupLoop m 0 sorted).1, s.name ∈ sorted.map (·.name) :=
    fun _ hs => cleanupLoop_name_mem hs
  rw [hcl]
  dsimp only
  generalize (cleanupLoop m 0 sorted).1 = cl at hclNonneg hclBounds hclNames ⊢
  have hmin : 0 ≤ (minAvailable d).toInt := by
    have := maxUnavailable_toInt_bounds hv
    rw [minAvailable_toInt hv]
    omega
  have hcleanValid : ∀ rs ∈ newRS :: sorted.map fun rs =>
      { rs with replicas := afterScales cl rs.name rs.replicas }, rs.Valid := by
    rintro rs (_ | ⟨_, hrs⟩)
    · exact hv.rs_valid newRS List.mem_cons_self
    · obtain ⟨r, hr, rfl⟩ := List.mem_map.mp hrs
      exact ⟨(hold r (hsortedOld r hr)).1, (hclBounds r hr).1⟩
  have hcleanNodup : ((sorted.map fun rs =>
      { rs with replicas := afterScales cl rs.name rs.replicas }).map (·.name)).Nodup := by
    rw [List.map_map]
    exact hsortedNodup
  have hsumR : sumReplicas (sorted.map fun rs =>
      { rs with replicas := afterScales cl rs.name rs.replicas }) ≤ sumReplicas oldRSs := by
    calc sumReplicas (sorted.map fun rs => { rs with replicas := afterScales cl rs.name rs.replicas })
        ≤ sumReplicas sorted := by
          rw [sumReplicas, sumReplicas, List.map_map]
          exact List.sum_le_sum fun rs hrs => (hclBounds rs hrs).2
      _ = sumReplicas (filterActiveReplicaSets oldRSs) := (hperm.map _).sum_eq
      _ = sumReplicas oldRSs := sum_filterActiveReplicaSets fun rs hrs h => (hzero rs hrs h).1
  have hsumA : sumAvailable (newRS :: sorted.map fun rs =>
      { rs with replicas := afterScales cl rs.name rs.replicas }) = sumAvailable (newRS :: oldRSs) := by
    have : sumAvailable (sorted.map fun rs =>
        { rs with replicas := afterScales cl rs.name rs.replicas }) = sumAvailable oldRSs := by
      calc _ = sumAvailable sorted := by rw [sumAvailable, sumAvailable, List.map_map]; rfl
        _ = sumAvailable (filterActiveReplicaSets oldRSs) := (hperm.map _).sum_eq
        _ = sumAvailable oldRSs := sum_filterActiveReplicaSets fun rs hrs h => (hzero rs hrs h).2
    simp only [sumAvailable, List.map_cons, List.sum_cons] at this ⊢
    rw [this]
  have hlt : sumReplicas (newRS :: sorted.map fun rs =>
      { rs with replicas := afterScales cl rs.name rs.replicas }) < 2 ^ 31 := by
    have := hno.sumReplicas_lt
    simp only [sumReplicas, List.map_cons, List.sum_cons] at this hsumR ⊢
    omega
  obtain ⟨sdNonneg, sdNames, sdBounds, sdSum⟩ :=
    scaleDownOldReplicaSetsForRollingUpdate_spec hmin hcleanValid hcleanNodup hlt
  rw [hsumA, List.map_map] at sdSum
  generalize scaleDownOldReplicaSetsForRollingUpdate _ _ d = sd at sdNonneg sdNames sdBounds sdSum ⊢
  replace sdNames : ∀ s ∈ sd, s.name ∈ sorted.map (·.name) := by
    intro s hs
    have := sdNames s hs
    rw [List.map_map] at this
    exact this
  have hinactive : ∀ rs ∈ oldRSs, ¬ rs.replicas > 0 →
      afterScales (cl ++ sd) rs.name rs.replicas = rs.replicas := by
    intro rs hrs h
    have hout := name_not_mem_sortByCreationTimestamp_filterActive holdNodup hrs h
    rw [afterScales_append, afterScales_of_forall_ne fun s hs heq => hout (by rw [← heq]; exact sdNames s hs),
      afterScales_of_forall_ne fun s hs heq => hout (by rw [← heq]; exact hclNames s hs)]
  have hfinal : ∀ rs ∈ sorted, 0 ≤ (afterScales (cl ++ sd) rs.name rs.replicas).toInt ∧
      (afterScales (cl ++ sd) rs.name rs.replicas).toInt ≤ (afterScales cl rs.name rs.replicas).toInt := by
    intro rs hrs
    rw [afterScales_append]
    exact sdBounds { rs with replicas := afterScales cl rs.name rs.replicas } (List.mem_map_of_mem hrs)
  have hbounds : ∀ rs ∈ oldRSs, 0 ≤ (afterScales (cl ++ sd) rs.name rs.replicas).toInt ∧
      (afterScales (cl ++ sd) rs.name rs.replicas).toInt ≤ rs.replicas.toInt := by
    intro rs hrs
    by_cases h : rs.replicas > 0
    · have hmem := mem_sortByCreationTimestamp_filterActive.mpr ⟨hrs, h⟩
      exact ⟨(hfinal rs hmem).1, le_trans (hfinal rs hmem).2 (hclBounds rs hmem).2⟩
    · rw [hinactive rs hrs h]
      exact le_trans (hold rs hrs).1 (hold rs hrs).2 |> fun h' => ⟨h', le_refl _⟩
  refine ⟨?_, ?_, fun rs hrs => (hbounds rs hrs).1, fun rs hrs => (hbounds rs hrs).2, ?_⟩
  · intro s hs
    rcases List.mem_append.mp hs with hs | hs
    · exact hclNonneg s hs
    · exact sdNonneg s hs
  · intro s hs
    have hsorted : s.name ∈ sorted.map (·.name) := by
      rcases List.mem_append.mp hs with hs | hs
      · exact hclNames s hs
      · exact sdNames s hs
    obtain ⟨r, hr, hname⟩ := List.mem_map.mp hsorted
    exact hname ▸ List.mem_map_of_mem (hsortedOld r hr)
  · -- only the scale-down loses available pods: the cleanup keeps them
    calc (oldRSs.map fun rs => rs.availableReplicas.toInt -
          min rs.availableReplicas.toInt (afterScales (cl ++ sd) rs.name rs.replicas).toInt).sum
        = (sorted.map fun rs => rs.availableReplicas.toInt -
          min rs.availableReplicas.toInt (afterScales (cl ++ sd) rs.name rs.replicas).toInt).sum := by
          rw [(hperm.map _).sum_eq]
          refine (sum_filterActiveReplicaSets fun rs hrs h => ?_).symm
          rw [hinactive rs hrs h]
          have := hzero rs hrs h
          omega
      _ ≤ (sorted.map fun rs => (afterScales cl rs.name rs.replicas).toInt -
          (afterScales (cl ++ sd) rs.name rs.replicas).toInt).sum := by
          refine List.sum_le_sum fun rs hrs => ?_
          have := (hclBounds rs hrs).1
          have := (hfinal rs hrs).2
          omega
      _ ≤ max 0 (sumAvailable (newRS :: oldRSs) - (minAvailable d).toInt) := by
          simp only [afterScales_append]
          exact sdSum

/-! ## One step keeps within the budgets -/

/-- What a rolling-update step must keep to, for requests `plan` applied to the new ReplicaSet
and the old ones: no negative size; the new ReplicaSet never asked for more than `replicas`; no
more than `replicas + MaxSurge` pods in all unless there were already; and, when the ReplicaSet
controller removes unavailable pods first, at most the available pods beyond `MinAvailable` lost,
so that there stay at least `MinAvailable` available when there were. -/
structure WithinBudgets (d : Deployment) (newRS : ReplicaSet) (oldRSs : List ReplicaSet)
    (plan : List Scale) : Prop where
  newScale_nonneg : ∀ s ∈ plan, 0 ≤ s.newScale.toInt
  newRS_le : ∀ s ∈ plan, s.name = newRS.name → s.newScale.toInt ≤ d.replicas.toInt
  surge : sumReplicas (newRS :: oldRSs) ≤ d.replicas.toInt + (maxSurge d).toInt →
    ((newRS :: oldRSs).map fun rs => (afterScales plan rs.name rs.replicas).toInt).sum ≤
      d.replicas.toInt + (maxSurge d).toInt
  lost_le : (oldRSs.map fun rs => rs.availableReplicas.toInt -
    min rs.availableReplicas.toInt (afterScales plan rs.name rs.replicas).toInt).sum ≤
      max 0 (sumAvailable (newRS :: oldRSs) - (minAvailable d).toInt)
  minAvailable_le : (minAvailable d).toInt ≤ sumAvailable (newRS :: oldRSs) →
    (minAvailable d).toInt ≤ ((newRS :: oldRSs).map fun rs =>
      min rs.availableReplicas.toInt (afterScales plan rs.name rs.replicas).toInt).sum

theorem minAvailable_toInt_bounds (hv : Valid d newRS oldRSs) :
    0 ≤ (minAvailable d).toInt ∧ (minAvailable d).toInt ≤ d.replicas.toInt := by
  have := maxUnavailable_toInt_bounds hv
  rw [minAvailable_toInt hv]
  omega

/-- A step that only resizes the new ReplicaSet, as `reconcileNewReplicaSet_spec` says it does,
keeps within the budgets. -/
theorem withinBudgets_of_newRS (hv : Valid d newRS oldRSs) {t : Int32}
    (ht : (t = d.replicas ∧ d.replicas.toInt < newRS.replicas.toInt) ∨
      (newRS.replicas.toInt < t.toInt ∧ t.toInt ≤ d.replicas.toInt ∧
        sumReplicas (newRS :: oldRSs) - newRS.replicas.toInt + t.toInt ≤
          d.replicas.toInt + (maxSurge d).toInt)) :
    WithinBudgets d newRS oldRSs [⟨newRS.name, t⟩] := by
  have hnot := name_not_mem_of_nodup hv.names_nodup
  have hR := hv.replicas_nonneg
  have hnewValid := hv.rs_valid newRS List.mem_cons_self
  unfold ReplicaSet.Valid at hnewValid
  have hmin := minAvailable_toInt_bounds hv
  have hA0 := sumAvailable_nonneg fun rs hrs => hv.rs_valid rs (List.mem_cons_of_mem newRS hrs)
  have hold : ∀ rs ∈ oldRSs, afterScales [⟨newRS.name, t⟩] rs.name rs.replicas = rs.replicas := by
    intro rs hrs
    refine afterScales_of_forall_ne fun s hs heq => hnot ?_
    have hname : newRS.name = rs.name := by rw [List.mem_singleton.mp hs] at heq; exact heq
    rw [hname]
    exact List.mem_map_of_mem hrs
  have hnew : afterScales [⟨newRS.name, t⟩] newRS.name newRS.replicas = t := by simp [afterScales]
  have hminOld : (oldRSs.map fun rs => min rs.availableReplicas.toInt
      (afterScales [⟨newRS.name, t⟩] rs.name rs.replicas).toInt).sum = sumAvailable oldRSs := by
    refine congrArg List.sum (List.map_congr_left fun rs hrs => ?_)
    rw [hold rs hrs]
    exact min_eq_left (hv.rs_valid rs (List.mem_cons_of_mem newRS hrs)).2
  have htNonneg : 0 ≤ t.toInt := by
    rcases ht with ⟨rfl, -⟩ | ⟨h, -⟩ <;> omega
  constructor
  · intro s hs
    rw [List.mem_singleton.mp hs]
    exact htNonneg
  · intro s hs _
    rw [List.mem_singleton.mp hs]
    rcases ht with ⟨rfl, -⟩ | ⟨-, h, -⟩
    · exact le_refl _
    · exact h
  · intro hle
    have hsumOld : (oldRSs.map fun rs => (afterScales [⟨newRS.name, t⟩] rs.name rs.replicas).toInt).sum =
        sumReplicas oldRSs :=
      congrArg List.sum (List.map_congr_left fun rs hrs => by rw [hold rs hrs])
    simp only [List.map_cons, List.sum_cons, hnew, hsumOld]
    simp only [sumReplicas, List.map_cons, List.sum_cons] at ht hle ⊢
    rcases ht with ⟨rfl, h⟩ | ⟨-, -, h⟩ <;> omega
  · have : ∀ rs ∈ oldRSs, rs.availableReplicas.toInt - min rs.availableReplicas.toInt
        (afterScales [⟨newRS.name, t⟩] rs.name rs.replicas).toInt = 0 := by
      intro rs hrs
      rw [hold rs hrs, min_eq_left (hv.rs_valid rs (List.mem_cons_of_mem newRS hrs)).2, Int.sub_self]
    rw [List.map_congr_left this]
    simp
  · intro hle
    simp only [List.map_cons, List.sum_cons, hnew, hminOld]
    simp only [sumAvailable, List.map_cons, List.sum_cons] at hA0 hle ⊢
    rcases ht with ⟨rfl, h⟩ | ⟨h, -, -⟩ <;> omega

/-- A step that leaves the new ReplicaSet alone and lowers the old ones as
`reconcileOldReplicaSets_spec` says keeps within the budgets. -/
theorem withinBudgets_of_lowersOld (hv : Valid d newRS oldRSs) {plan : List Scale}
    (h : LowersOld plan oldRSs (max 0 (sumAvailable (newRS :: oldRSs) - (minAvailable d).toInt))) :
    WithinBudgets d newRS oldRSs plan := by
  have hnot := name_not_mem_of_nodup hv.names_nodup
  have hnewValid := hv.rs_valid newRS List.mem_cons_self
  unfold ReplicaSet.Valid at hnewValid
  have hnew : afterScales plan newRS.name newRS.replicas = newRS.replicas :=
    afterScales_of_forall_ne fun s hs heq => hnot (heq ▸ h.name_mem s hs)
  refine ⟨h.newScale_nonneg, fun s hs heq => absurd (heq ▸ h.name_mem s hs) hnot, fun hsurge => ?_,
    h.lost_le, fun hle => ?_⟩
  · have hle : (oldRSs.map fun rs => (afterScales plan rs.name rs.replicas).toInt).sum ≤
        sumReplicas oldRSs := List.sum_le_sum h.after_le
    simp only [sumReplicas, List.map_cons, List.sum_cons, hnew] at hle hsurge ⊢
    omega
  · -- what is left available is what there was, less what was lost
    have hsplit : (oldRSs.map fun rs => min rs.availableReplicas.toInt
          (afterScales plan rs.name rs.replicas).toInt).sum +
        (oldRSs.map fun rs => rs.availableReplicas.toInt - min rs.availableReplicas.toInt
          (afterScales plan rs.name rs.replicas).toInt).sum = sumAvailable oldRSs := by
      rw [← List.sum_map_add]
      exact congrArg List.sum (List.map_congr_left fun rs _ => by omega)
    have hlost := h.lost_le
    simp only [List.map_cons, List.sum_cons, hnew, min_eq_left hnewValid.2]
    simp only [sumAvailable, List.map_cons, List.sum_cons] at hsplit hlost hle
    omega

theorem rolloutRolling_withinBudgets (hv : Valid d newRS oldRSs) (hno : NoOverflow d newRS oldRSs) :
    WithinBudgets d newRS oldRSs (rolloutRolling d newRS oldRSs) := by
  unfold rolloutRolling
  dsimp only
  split
  · rename_i hup
    rcases reconcileNewReplicaSet_spec hv hno with h | ⟨t, h, ht⟩
    · exact absurd h hup
    · rw [h]
      exact withinBudgets_of_newRS hv ht
  · exact withinBudgets_of_lowersOld hv (reconcileOldReplicaSets_spec hv hno)

theorem rolloutRolling_within_budgets_example :
    Valid ⟨10, .percent 25, .percent 25⟩ ⟨"new", 2, 3, 3⟩ [⟨"old", 0, 10, 8⟩] ∧
      NoOverflow ⟨10, .percent 25, .percent 25⟩ ⟨"new", 2, 3, 3⟩ [⟨"old", 0, 10, 8⟩] ∧
      WithinBudgets ⟨10, .percent 25, .percent 25⟩ ⟨"new", 2, 3, 3⟩ [⟨"old", 0, 10, 8⟩]
        (rolloutRolling ⟨10, .percent 25, .percent 25⟩ ⟨"new", 2, 3, 3⟩ [⟨"old", 0, 10, 8⟩]) := by
  have hv : Valid ⟨10, .percent 25, .percent 25⟩ ⟨"new", 2, 3, 3⟩ [⟨"old", 0, 10, 8⟩] :=
    ⟨by decide, by decide, by decide, by decide, by decide, by decide⟩
  have hno : NoOverflow ⟨10, .percent 25, .percent 25⟩ ⟨"new", 2, 3, 3⟩ [⟨"old", 0, 10, 8⟩] :=
    ⟨by decide, by decide⟩
  exact ⟨hv, hno, rolloutRolling_withinBudgets hv hno⟩

/-- Without `NoOverflow` the step can ask for a negative size: with `replicas = 2 ^ 31 - 1`, the
sum of the old ReplicaSets' replicas wraps, and the new ReplicaSet is sent to `-6`. -/
theorem rolloutRolling_negative_of_overflow :
    Valid ⟨2147483647, .int 0, .int 1⟩ ⟨"new", 2, 0, 0⟩
        [⟨"a", 0, 2147483647, 2147483647⟩, ⟨"b", 1, 6, 6⟩] ∧
      rolloutRolling ⟨2147483647, .int 0, .int 1⟩ ⟨"new", 2, 0, 0⟩
        [⟨"a", 0, 2147483647, 2147483647⟩, ⟨"b", 1, 6, 6⟩] = [⟨"new", -6⟩] :=
  ⟨⟨by decide, by decide, by decide, by decide, by decide, by decide⟩, by decide⟩

end Deployment

end Kubernetes.DeploymentController
