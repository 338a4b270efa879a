import Mathlib
import Kubernetes.Deployment.Budget

/-!
# A rolling update moves on

When every pod of a Deployment's ReplicaSets is available, one `rolloutRolling` step of a rollout
that is not done should grow the new ReplicaSet or lower an old one (`MovesOn`).

`rolloutRolling_movesOn`: so it does, for a Deployment validation accepts whose new ReplicaSet
does not hold more than `replicas`, when the `int32` sums the step computes do not wrap. Either the
step grows the new ReplicaSet, or the pods already fill `replicas + MaxSurge`; then the old
ReplicaSets hold pods beyond `MinAvailable`, since `MaxSurge + MaxUnavailable` is positive for
positive `replicas` (the fencepost rule, `maxSurge_add_maxUnavailable_pos`), the cleanup finds no
unhealthy replica (`cleanupLoop_of_available`), and the scale-down lowers the first old
ReplicaSet with replicas (`scaleDownLoop_lowers`).

A `maxSurge` so large that `replicas + maxSurge` wraps stalls the rollout: `NewRSNewReplicas`
compares the pods with a negative total and grows nothing, and the old ReplicaSets have no pod
beyond `MinAvailable` to give up (`rolloutRolling_stalls_of_surge_overflow`).
-/

namespace Kubernetes.DeploymentController

/-- A step's requests move a rollout on: they grow the new ReplicaSet, or lower an old one. -/
def MovesOn (plan : List Scale) (newRS : ReplicaSet) (oldRSs : List ReplicaSet) : Prop :=
  (∃ s ∈ plan, s.name = newRS.name ∧ newRS.replicas.toInt < s.newScale.toInt) ∨
    ∃ rs ∈ oldRSs, ∃ s ∈ plan, s.name = rs.name ∧ s.newScale.toInt < rs.replicas.toInt

/-! ## Sums of replicas -/

theorem sumReplicas_cons (rs : ReplicaSet) (rss : List ReplicaSet) :
    sumReplicas (rs :: rss) = rs.replicas.toInt + sumReplicas rss := by
  simp [sumReplicas]

theorem sumAvailable_of_available {rss : List ReplicaSet}
    (h : ∀ rs ∈ rss, rs.availableReplicas = rs.replicas) : sumAvailable rss = sumReplicas rss := by
  unfold sumAvailable sumReplicas
  rw [List.map_congr_left fun rs hrs => by rw [h rs hrs]]

/-- ReplicaSets with no negative size hold replicas in all exactly when one of them does. -/
theorem sumReplicas_pos_iff {rss : List ReplicaSet} (h : ∀ rs ∈ rss, 0 ≤ rs.replicas.toInt) :
    0 < sumReplicas rss ↔ ∃ rs ∈ rss, 0 < rs.replicas.toInt := by
  constructor
  · intro hpos
    exact List.exists_lt_of_sum_lt (fun _ => (0 : ℤ)) (fun rs : ReplicaSet => rs.replicas.toInt)
      (by simpa [sumReplicas] using hpos)
  · rintro ⟨rs, hrs, hpos⟩
    have hle := List.single_le_sum (l := rss.map fun rs => rs.replicas.toInt)
      (by simpa using h) _ (List.mem_map_of_mem hrs)
    exact lt_of_lt_of_le hpos hle

/-! ## The fencepost rule -/

section Fenceposts

variable {d : Deployment} {newRS : ReplicaSet} {oldRSs : List ReplicaSet}

/-- When the surge is zero, `ResolveFenceposts` allows at least one pod to be unavailable. -/
theorem resolveFenceposts_snd_pos {maxSurge maxUnavailable : IntOrString} {desired : Int32}
    (hd : 0 ≤ desired.toInt) (hu : maxUnavailable.Nonneg)
    (hle : maxUnavailable.NotMoreThan100Percent)
    (hs : getScaledValueFromIntOrPercent maxSurge desired.toInt true = 0) :
    0 < (resolveFenceposts maxSurge maxUnavailable desired).2.toInt := by
  have hrange := scaledUnavailable_bounds hd hu hle
  unfold resolveFenceposts
  dsimp only
  rw [hs]
  split
  · decide
  · rename_i hne
    rw [Int32.toInt_ofInt_of_le (by omega) (by omega)]
    omega

/-- **The fencepost rule**: for positive `replicas`, the surge or the unavailability budget is
positive. -/
theorem maxSurge_add_maxUnavailable_pos (hv : Valid d newRS oldRSs)
    (hno : NoOverflow d newRS oldRSs) (hR : 0 < d.replicas.toInt) :
    0 < (maxSurge d).toInt + (maxUnavailable d).toInt := by
  have hbounds := maxUnavailable_toInt_bounds hv
  rw [maxSurge_toInt hv hno]
  by_cases hs : getScaledValueFromIntOrPercent d.maxSurge d.replicas.toInt true = 0
  · -- no surge: one pod may be unavailable, and `replicas` does not cap it below one
    have hpos := resolveFenceposts_snd_pos hv.replicas_nonneg hv.maxUnavailable_nonneg
      hv.maxUnavailable_le hs
    have hne : d.replicas ≠ 0 := fun h => by rw [h] at hR; simp at hR
    unfold maxUnavailable
    rw [if_neg hne]
    dsimp only
    split <;> omega
  · have := surge_nonneg hv
    omega

end Fenceposts

/-! ## Scaling the old ReplicaSets down when every pod is available -/

/-- With every pod available the cleanup has nothing to do. -/
theorem cleanupLoop_of_available {m t : Int32} {rss : List ReplicaSet}
    (h : ∀ rs ∈ rss, rs.availableReplicas = rs.replicas) :
    cleanupLoop m t rss = ([], some (rss, t)) := by
  induction rss with
  | nil => rfl
  | cons rs rest ih =>
    have ih := ih fun r hr => h r (List.mem_cons_of_mem rs hr)
    rw [cleanupLoop]
    split
    · rfl
    · dsimp only
      rw [ih]
      split
      · rfl
      · rw [if_pos (h rs List.mem_cons_self).symm]
        rfl

/-- Below its budget, the scale-down loop lowers the first ReplicaSet with replicas. -/
theorem scaleDownLoop_lowers {T u : Int32} {rss : List ReplicaSet} (hu : 0 ≤ u.toInt)
    (hlt : u.toInt < T.toInt) (hrss : ∀ rs ∈ rss, 0 ≤ rs.replicas.toInt)
    (hpos : ∃ rs ∈ rss, 0 < rs.replicas.toInt) :
    ∃ rs ∈ rss, ∃ s ∈ scaleDownLoop T u rss,
      s.name = rs.name ∧ s.newScale.toInt < rs.replicas.toInt := by
  induction rss with
  | nil =>
    obtain ⟨_, h, _⟩ := hpos
    cases h
  | cons rs rest ih =>
    have hgo : ¬ T ≤ u := by
      rw [Int32.le_iff_toInt_le]
      omega
    by_cases hzero : rs.replicas = 0
    · -- skipped: the ReplicaSet with replicas comes later
      have hpos' : ∃ r ∈ rest, 0 < r.replicas.toInt := by
        obtain ⟨r, hr, hr0⟩ := hpos
        rcases List.mem_cons.mp hr with rfl | hr
        · rw [hzero] at hr0
          simp at hr0
        · exact ⟨r, hr, hr0⟩
      obtain ⟨r, hr, s, hs, h⟩ := ih (fun r hr => hrss r (List.mem_cons_of_mem _ hr)) hpos'
      refine ⟨r, List.mem_cons_of_mem _ hr, s, ?_, h⟩
      rw [scaleDownLoop, if_neg hgo, if_pos hzero]
      exact hs
    · have hR : 0 < rs.replicas.toInt := by
        have h0 := hrss rs List.mem_cons_self
        have hne : rs.replicas.toInt ≠ 0 := fun h => hzero (Int32.toInt_inj.mp (by simpa using h))
        omega
      obtain ⟨hc, hnew, -⟩ := scaleDownLoop_step_toInt hR.le hu hlt
      refine ⟨rs, List.mem_cons_self, ⟨rs.name, rs.replicas - intMin rs.replicas (T - u)⟩, ?_,
        rfl, by dsimp only; omega⟩
      rw [scaleDownLoop, if_neg hgo, if_neg hzero]
      dsimp only
      rw [if_neg (by rw [GT.gt, Int32.lt_iff_toInt_lt]; omega)]
      apply List.mem_append_left
      rw [scaleReplicaSetAndRecordEvent, if_neg fun h => by rw [← Int32.toInt_inj] at h; omega]
      exact List.mem_singleton_self _

section Deployment

variable {d : Deployment} {newRS : ReplicaSet} {oldRSs : List ReplicaSet}

/-- With every pod available and more of them than `MinAvailable`,
`scaleDownOldReplicaSetsForRollingUpdate` lowers an old ReplicaSet with replicas. -/
theorem scaleDownOldReplicaSetsForRollingUpdate_lowers {rss : List ReplicaSet}
    (hmin : 0 ≤ (minAvailable d).toInt) (hrss : ∀ rs ∈ newRS :: rss, rs.Valid)
    (havail : ∀ rs ∈ newRS :: rss, rs.availableReplicas = rs.replicas)
    (hlt : sumReplicas (newRS :: rss) < 2 ^ 31)
    (hgt : (minAvailable d).toInt < sumReplicas (newRS :: rss))
    (hpos : ∃ rs ∈ rss, 0 < rs.replicas.toInt) :
    ∃ rs ∈ rss, ∃ s ∈ scaleDownOldReplicaSetsForRollingUpdate (rss ++ [newRS]) rss d,
      s.name = rs.name ∧ s.newScale.toInt < rs.replicas.toInt := by
  have hall : ∀ rs ∈ rss ++ [newRS], rs.Valid := fun rs hrs =>
    hrss rs (by simpa [or_comm] using hrs)
  have hminDef : (d.replicas - maxUnavailable d).toInt = (minAvailable d).toInt := rfl
  have hA : (getAvailableReplicaCountForReplicaSets (rss ++ [newRS])).toInt =
      sumReplicas (newRS :: rss) := by
    rw [getAvailableReplicaCountForReplicaSets_toInt hall (by rwa [sumReplicas_append_singleton]),
      sumAvailable_append_singleton, sumAvailable_of_available havail]
  have hT : (getAvailableReplicaCountForReplicaSets (rss ++ [newRS]) - minAvailable d).toInt =
      sumReplicas (newRS :: rss) - (minAvailable d).toInt := by
    rw [Go.int32_toInt_sub (by omega) (by omega), hA]
  have hcall : scaleDownOldReplicaSetsForRollingUpdate (rss ++ [newRS]) rss d = _ :=
    scaleDownOldReplicaSetsForRollingUpdate_of_not_le (by rw [Int32.le_iff_toInt_le, hA]; omega)
  have hperm := sortByCreationTimestamp_perm rss
  have hnonneg : ∀ rs ∈ sortByCreationTimestamp rss, 0 ≤ rs.replicas.toInt := fun rs hrs =>
    have hv := hrss rs (List.mem_cons_of_mem _ (hperm.mem_iff.mp hrs))
    le_trans hv.1 hv.2
  obtain ⟨r, hr, hr0⟩ := hpos
  obtain ⟨rs, hrs, h⟩ := scaleDownLoop_lowers (u := 0) (by simp)
    (by rw [hT, Int32.toInt_zero]; omega) hnonneg
    ⟨r, hperm.mem_iff.mpr hr, hr0⟩
  exact ⟨rs, hperm.mem_iff.mp hrs, hcall ▸ h⟩

/-- With every pod available, more of them than `MinAvailable` and an old ReplicaSet with
replicas, the second half of a step lowers an old ReplicaSet. -/
theorem reconcileOldReplicaSets_lowers (hv : Valid d newRS oldRSs)
    (hno : NoOverflow d newRS oldRSs)
    (havail : ∀ rs ∈ newRS :: oldRSs, rs.availableReplicas = rs.replicas)
    (hgt : (minAvailable d).toInt < sumReplicas (newRS :: oldRSs))
    (hpos : ∃ rs ∈ oldRSs, 0 < rs.replicas.toInt) :
    ∃ rs ∈ oldRSs, ∃ s ∈ reconcileOldReplicaSets (oldRSs ++ [newRS])
      (filterActiveReplicaSets oldRSs) newRS d,
      s.name = rs.name ∧ s.newScale.toInt < rs.replicas.toInt := by
  have hold : ∀ rs ∈ oldRSs, rs.Valid := fun rs hrs => hv.rs_valid rs (List.mem_cons_of_mem _ hrs)
  have hsum := hno.sumReplicas_lt
  have hsplit := sumReplicas_cons newRS oldRSs
  have hmin : 0 ≤ (minAvailable d).toInt := by
    have := maxUnavailable_toInt_bounds hv
    rw [minAvailable_toInt hv]
    omega
  set sorted := sortByCreationTimestamp (filterActiveReplicaSets oldRSs) with hsorted
  have hsortedOld : ∀ rs ∈ sorted, rs ∈ oldRSs := fun rs hrs =>
    (mem_sortByCreationTimestamp_filterActive.mp hrs).1
  have hactive : sumReplicas (filterActiveReplicaSets oldRSs) = sumReplicas oldRSs :=
    sum_filterActiveReplicaSets fun rs hrs h => by
      rw [GT.gt, Int32.lt_iff_toInt_lt] at h
      have := hold rs hrs
      unfold ReplicaSet.Valid at this
      simp only [Int32.toInt_zero] at h
      omega
  have hsumSorted : sumReplicas sorted = sumReplicas oldRSs :=
    ((sortByCreationTimestamp_perm _).map _).sum_eq.trans hactive
  have holdPos : 0 < sumReplicas oldRSs :=
    (sumReplicas_pos_iff fun rs hrs => le_trans (hold rs hrs).1 (hold rs hrs).2).mpr hpos
  have hnewLe := le_trans (hv.rs_valid newRS List.mem_cons_self).1
    (hv.rs_valid newRS List.mem_cons_self).2
  have hactiveValid : ∀ rs ∈ filterActiveReplicaSets oldRSs, rs.Valid := fun rs hrs =>
    hold rs (List.mem_filter.mp hrs).1
  have holdCount : (getReplicaCountForReplicaSets (filterActiveReplicaSets oldRSs)).toInt =
      sumReplicas oldRSs := by
    rw [getReplicaCountForReplicaSets_toInt hactiveValid (by omega), hactive]
  have hallCount : (getReplicaCountForReplicaSets (oldRSs ++ [newRS])).toInt =
      sumReplicas (newRS :: oldRSs) := by
    rw [getReplicaCountForReplicaSets_toInt hv.rs_valid_append
      (by rwa [sumReplicas_append_singleton]), sumReplicas_append_singleton]
  have hunavail : newRS.replicas - newRS.availableReplicas = 0 := by
    rw [havail newRS List.mem_cons_self, Int32.sub_self]
  have hbudget : (getReplicaCountForReplicaSets (oldRSs ++ [newRS]) -
      (d.replicas - maxUnavailable d) - (newRS.replicas - newRS.availableReplicas)).toInt =
        sumReplicas (newRS :: oldRSs) - (minAvailable d).toInt := by
    have hminDef : (d.replicas - maxUnavailable d).toInt = (minAvailable d).toInt := rfl
    rw [hunavail, Int32.sub_zero, Go.int32_toInt_sub (by omega) (by omega), hallCount, hminDef]
  unfold reconcileOldReplicaSets cleanupUnhealthyReplicas
  dsimp only
  rw [if_neg fun h => by rw [← Int32.toInt_inj, holdCount] at h; simp at h; omega,
    if_neg (by rw [Int32.le_iff_toInt_le, hbudget]; simp; omega),
    cleanupLoop_of_available fun rs hrs => havail rs (List.mem_cons_of_mem _ (hsortedOld rs hrs))]
  dsimp only
  obtain ⟨r, hr, hr0⟩ := hpos
  obtain ⟨rs, hrs, s, hs, h⟩ := @scaleDownOldReplicaSetsForRollingUpdate_lowers d newRS sorted hmin
    (by
      rintro rs (_ | ⟨_, hrs⟩)
      · exact hv.rs_valid newRS List.mem_cons_self
      · exact hold rs (hsortedOld rs hrs))
    (by
      rintro rs (_ | ⟨_, hrs⟩)
      · exact havail newRS List.mem_cons_self
      · exact havail rs (List.mem_cons_of_mem _ (hsortedOld rs hrs)))
    (by rw [sumReplicas_cons, hsumSorted, ← sumReplicas_cons]; exact hsum)
    (by rw [sumReplicas_cons, hsumSorted, ← sumReplicas_cons]; exact hgt)
    ⟨r, mem_sortByCreationTimestamp_filterActive.mpr ⟨hr, by
      rw [GT.gt, Int32.lt_iff_toInt_lt]; simpa using hr0⟩, hr0⟩
  exact ⟨rs, hsortedOld rs hrs, s, List.mem_append_right _ hs, h⟩

/-- When the new ReplicaSet is below `replicas` and the first half of a step sends no request,
the pods already fill `replicas + MaxSurge`. -/
theorem replicas_add_maxSurge_le_of_reconcileNewReplicaSet_eq_nil (hv : Valid d newRS oldRSs)
    (hno : NoOverflow d newRS oldRSs) (hlt : newRS.replicas.toInt < d.replicas.toInt)
    (hnil : reconcileNewReplicaSet (oldRSs ++ [newRS]) newRS d = []) :
    d.replicas.toInt + (maxSurge d).toInt ≤ sumReplicas (newRS :: oldRSs) := by
  have hne : newRS.replicas ≠ d.replicas := fun h => by rw [h] at hlt; omega
  have hngt : ¬ newRS.replicas > d.replicas := by
    rw [GT.gt, Int32.lt_iff_toInt_lt]
    omega
  rw [reconcileNewReplicaSet, if_neg hne, if_neg hngt, scaleReplicaSetAndRecordEvent] at hnil
  have hsame : newRS.replicas = newRSNewReplicas d (oldRSs ++ [newRS]) newRS := by
    by_contra h
    rw [if_neg h] at hnil
    cases hnil
  have hnew := newRSNewReplicas_toInt hv hno hlt
  rw [← hsame] at hnew
  by_contra hfull
  rw [if_neg hfull] at hnew
  omega

/-- **A step moves a rollout on** when every pod is available: for a Deployment validation
accepts whose new ReplicaSet holds at most `replicas`, and a rollout not done (the new
ReplicaSet below `replicas`, or an old one with replicas), one `rolloutRolling` step grows the
new ReplicaSet or lowers an old one, when its `int32` sums do not wrap. -/
theorem rolloutRolling_movesOn (hv : Valid d newRS oldRSs) (hno : NoOverflow d newRS oldRSs)
    (havail : ∀ rs ∈ newRS :: oldRSs, rs.availableReplicas = rs.replicas)
    (hle : newRS.replicas.toInt ≤ d.replicas.toInt)
    (hinc : newRS.replicas.toInt < d.replicas.toInt ∨ ∃ rs ∈ oldRSs, 0 < rs.replicas.toInt) :
    MovesOn (rolloutRolling d newRS oldRSs) newRS oldRSs := by
  have hold : ∀ rs ∈ oldRSs, 0 ≤ rs.replicas.toInt := fun rs hrs =>
    have h := hv.rs_valid rs (List.mem_cons_of_mem _ hrs)
    le_trans h.1 h.2
  have hnew := hv.rs_valid newRS List.mem_cons_self
  have hmu := maxUnavailable_toInt_bounds hv
  have hmin := minAvailable_toInt hv
  have hsplit := sumReplicas_cons newRS oldRSs
  unfold rolloutRolling
  dsimp only
  rcases reconcileNewReplicaSet_spec hv hno with hnil | ⟨t, ht, hdown | hup⟩
  · -- no request for the new ReplicaSet: the old ones hold pods beyond `MinAvailable`
    rw [if_neg (by rw [hnil]; exact fun h => h rfl)]
    right
    by_cases hlt : newRS.replicas.toInt < d.replicas.toInt
    · -- the pods fill `replicas + MaxSurge`, which is beyond `MinAvailable` by the fencepost rule
      have hfull := replicas_add_maxSurge_le_of_reconcileNewReplicaSet_eq_nil hv hno hlt hnil
      have hfence := maxSurge_add_maxUnavailable_pos hv hno
        (by unfold ReplicaSet.Valid at hnew; omega)
      have hsurge := surge_nonneg hv
      rw [← maxSurge_toInt hv hno] at hsurge
      exact reconcileOldReplicaSets_lowers hv hno havail (by omega)
        ((sumReplicas_pos_iff hold).mp (by omega))
    · -- the new ReplicaSet holds `replicas`, and an old one holds more
      have hpos := hinc.resolve_left hlt
      have holdPos := (sumReplicas_pos_iff hold).mpr hpos
      exact reconcileOldReplicaSets_lowers hv hno havail (by omega) hpos
  · -- `reconcileNewReplicaSet` scales down only a new ReplicaSet above `replicas`
    omega
  · rw [if_pos (by rw [ht]; simp)]
    exact .inl ⟨⟨newRS.name, t⟩, by rw [ht]; exact List.mem_singleton_self _, rfl, hup.1⟩

end Deployment

/-! ## A surge that wraps -/

/-- A Deployment of two replicas rolled out with the largest `int32` as its `maxSurge`, and no
pod allowed to be unavailable. -/
def overflowingDeployment : Deployment := ⟨2, .int 2147483647, .int 0⟩

/-- Its new ReplicaSet, not scaled up yet. -/
def stalledNewRS : ReplicaSet := ⟨"new", 1, 0, 0⟩

/-- Its old ReplicaSet, with both pods available. -/
def stalledOldRS : ReplicaSet := ⟨"old", 0, 2, 2⟩

/-- **A surge that wraps stalls the rollout**: `replicas + maxSurge` wraps to a negative total, so
the new ReplicaSet is not grown, and with no pod allowed to be unavailable the old one is not
lowered; the step sends no request although every pod is available. -/
theorem rolloutRolling_stalls_of_surge_overflow :
    Valid overflowingDeployment stalledNewRS [stalledOldRS] ∧
      (∀ rs ∈ [stalledNewRS, stalledOldRS], rs.availableReplicas = rs.replicas) ∧
      stalledNewRS.replicas.toInt < overflowingDeployment.replicas.toInt ∧
      rolloutRolling overflowingDeployment stalledNewRS [stalledOldRS] = [] :=
  ⟨⟨by decide, by decide, by decide, by decide, by decide, by decide⟩, by decide, by decide,
    by decide⟩

end Kubernetes.DeploymentController
