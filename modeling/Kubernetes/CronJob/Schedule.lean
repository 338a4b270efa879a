import Mathlib

/-!
# The schedule times of the CronJob controller

`pkg/controller/cronjob/utils.go`. The first CronJob controller lists the times its schedule has
passed since the last time it started a Job (`getRecentUnmetScheduleTimes`) and starts the
latest; the second one computes that latest time at once (`getNextScheduleTime`), from the first
two times of the schedule after the last start, extrapolated as if the schedule were evenly
spaced (`getMostRecentScheduleTime`).

* `unmetScheduleTimes_spec`: the listing ends on a time of the schedule that is due and whose
  next time is not.
* `getNextScheduleTime_eq_getLast`: on a schedule evenly spaced from its first time, the two
  controllers agree.
* `getNextScheduleTime_off_schedule`: on the schedule `0,1 * * * *` they do not, and the second
  controller starts a Job at a time that is not in the schedule.

A parsed schedule is its `Next` function. Times are whole seconds: the schedule's times, the
creation and last schedule times are, and the comparisons with `now` read it at its whole
second. The warning event past 100 missed times changes no result and is left out.
-/

namespace Kubernetes.CronJobController

/-- A `batchv1.CronJob`, what the schedule reads of it. -/
structure CronJob where
  creationTimestamp : ℤ
  lastScheduleTime : Option ℤ
  startingDeadlineSeconds : Option ℤ

/-- The time after which both functions look for schedule times: the last schedule time, or the
creation time, moved up to `startingDeadlineSeconds` before `now`. -/
def CronJob.earliestTime (cj : CronJob) (now : ℤ) : ℤ :=
  let earliestTime := cj.lastScheduleTime.getD cj.creationTimestamp
  match cj.startingDeadlineSeconds with
  | none => earliestTime
  | some startingDeadlineSeconds =>
    if earliestTime < now - startingDeadlineSeconds then now - startingDeadlineSeconds
    else earliestTime

/-- The loop of `getRecentUnmetScheduleTimes` from the time `t`, run at most `fuel` times. It
starts with 101 turns, and the 101st time due stops it by its error first, so the error of the
last case is the one the loop reports. -/
def unmetScheduleTimes (next : ℤ → ℤ) (now : ℤ) : ℕ → ℤ → List ℤ → Except String (List ℤ)
  | 0, _, _ =>
    .error "too many missed start time (> 100). Set or decrease .spec.startingDeadlineSeconds or check clock skew"
  | fuel + 1, t, starts =>
    if now < t then .ok starts
    else if 100 < (starts ++ [t]).length then
      .error "too many missed start time (> 100). Set or decrease .spec.startingDeadlineSeconds or check clock skew"
    else unmetScheduleTimes next now fuel (next t) (starts ++ [t])

/-- `getRecentUnmetScheduleTimes`: the times of the schedule after the earliest time and up to
`now`, oldest first, or an error past 100 of them. -/
def getRecentUnmetScheduleTimes (next : ℤ → ℤ) (cj : CronJob) (now : ℤ) :
    Except String (List ℤ) :=
  if now < cj.earliestTime now then .ok []
  else unmetScheduleTimes next now 101 (next (cj.earliestTime now)) []

/-- `getMostRecentScheduleTime`: the latest time due, extrapolated from the first two, and the
number of times due. Go's integer division truncates. -/
def getMostRecentScheduleTime (earliestTime now : ℤ) (next : ℤ → ℤ) :
    Except String (Option ℤ × ℤ) :=
  let t1 := next earliestTime
  let t2 := next t1
  if now < t1 then .ok (none, 0)
  else if now < t2 then .ok (some t1, 1)
  else
    let timeBetweenTwoSchedules := t2 - t1
    if timeBetweenTwoSchedules < 1 then
      .error "time difference between two schedules less than 1 second"
    else
      let timeElapsed := now - t1
      let numberOfMissedSchedules := timeElapsed.tdiv timeBetweenTwoSchedules + 1
      .ok (some (t1 + (numberOfMissedSchedules - 1) * timeBetweenTwoSchedules),
        numberOfMissedSchedules)

/-- `getNextScheduleTime`: the time to start a Job at, `none` where none is due. -/
def getNextScheduleTime (next : ℤ → ℤ) (cj : CronJob) (now : ℤ) : Except String (Option ℤ) :=
  if now < cj.earliestTime now then .ok none
  else (getMostRecentScheduleTime (cj.earliestTime now) now next).map Prod.fst

/-! ## The listing -/

/-- Where the listing succeeds, it stops on a time not due yet, or its last time is due, reached
from the first by the schedule, and followed by one that is not due. -/
theorem unmetScheduleTimes_spec (next : ℤ → ℤ) (now : ℤ) (fuel : ℕ) (t : ℤ) (starts L : List ℤ)
    (h : unmetScheduleTimes next now fuel t starts = .ok L) :
    (L = starts ∧ now < t) ∨
      ∃ k : ℕ, L.getLast? = some (next^[k] t) ∧ next^[k] t ≤ now ∧ now < next (next^[k] t) := by
  induction fuel generalizing t starts with
  | zero => simp [unmetScheduleTimes] at h
  | succ fuel ih =>
    rw [unmetScheduleTimes] at h
    split_ifs at h with hdue hmany
    · exact .inl ⟨(Except.ok.inj h).symm, hdue⟩
    · rcases ih (next t) (starts ++ [t]) h with ⟨rfl, hnext⟩ | ⟨k, hlast, hle, hlt⟩
      · exact .inr ⟨0, by simp, by simpa using hdue, hnext⟩
      · refine .inr ⟨k + 1, ?_, ?_, ?_⟩ <;> simpa only [Function.iterate_succ_apply]

/-! ## Evenly spaced schedules -/

section EvenlySpaced

variable {next : ℤ → ℤ} {cj : CronJob} {now d : ℤ}

/-- On a schedule evenly spaced from its first time after the earliest time, the time the second
controller starts is the last of the times the first controller lists. -/
theorem getNextScheduleTime_eq_getLast (hd : 0 < d)
    (heven : ∀ k : ℕ, next^[k] (next (cj.earliestTime now)) = next (cj.earliestTime now) + k * d)
    {L : List ℤ} (h : getRecentUnmetScheduleTimes next cj now = .ok L) :
    getNextScheduleTime next cj now = .ok L.getLast? := by
  unfold getRecentUnmetScheduleTimes at h
  unfold getNextScheduleTime
  split_ifs at h ⊢ with hearly
  · rw [← Except.ok.inj h]
    rfl
  set t1 := next (cj.earliestTime now) with ht1
  have ht2 : next t1 = t1 + d := by simpa using heven 1
  unfold getMostRecentScheduleTime
  simp only [← ht1, ht2]
  rcases unmetScheduleTimes_spec next now 101 t1 [] L h with ⟨rfl, hnow⟩ | ⟨k, hlast, hle, hlt⟩
  · simp [hnow]
    rfl
  rw [heven k] at hle hlt
  have hnext : next (t1 + k * d) = t1 + (k + 1) * d := by
    have := heven (k + 1)
    rw [Function.iterate_succ_apply', heven k] at this
    rw [this]
    push_cast
    ring
  rw [hnext] at hlt
  rw [hlast, heven k]
  have hk : 0 ≤ (k : ℤ) := Int.natCast_nonneg k
  have hnlt : ¬now < t1 := by nlinarith
  by_cases hk0 : k = 0
  · subst hk0
    have hnow : now < t1 + d := by simpa using hlt
    simp [hnlt, hnow]
    rfl
  · -- `k` is the quotient of the time elapsed by the spacing
    have hquot : (now - t1).tdiv d = k := by
      rw [Int.tdiv_eq_ediv_of_nonneg (by nlinarith)]
      exact ((Int.ediv_emod_unique (r := now - t1 - d * k) hd).mpr
        ⟨by ring, by nlinarith, by nlinarith⟩).1
    have hk1 : (1 : ℤ) ≤ k := by omega
    have hge : ¬now < t1 + d := by nlinarith
    have hsep : ¬d < 1 := by omega
    simp only [hnlt, hge, if_false, show t1 + d - t1 = d by ring, hsep, hquot]
    simp
    rfl

end EvenlySpaced

/-! ## A schedule that is not evenly spaced -/

/-- `Next` of the schedule `0,1 * * * *`: the first and the second minute of every hour. -/
def firstTwoMinutesHourly (t : ℤ) : ℤ :=
  if t % 3600 < 60 then t - t % 3600 + 60 else t - t % 3600 + 3600

theorem lt_firstTwoMinutesHourly (t : ℤ) : t < firstTwoMinutesHourly t := by
  unfold firstTwoMinutesHourly
  split_ifs <;> omega

/-- A CronJob created at time `0` that has not started a Job. -/
def newCronJob : CronJob := ⟨0, none, none⟩

theorem getNextScheduleTime_off_schedule :
    (∀ t, t < firstTwoMinutesHourly t) ∧
    getRecentUnmetScheduleTimes firstTwoMinutesHourly newCronJob 7200 =
      .ok [60, 3600, 3660, 7200] ∧
    getNextScheduleTime firstTwoMinutesHourly newCronJob 7200 = .ok (some 7140) ∧
    firstTwoMinutesHourly 7139 = 7200 :=
  ⟨lt_firstTwoMinutesHourly, by decide, by decide, by decide⟩

end Kubernetes.CronJobController
