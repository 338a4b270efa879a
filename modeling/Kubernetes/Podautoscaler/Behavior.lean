import Mathlib
import Kubernetes.Foundations.GoStd

/-!
# Scaling behaviors of the horizontal pod autoscaler

`normalizeDesiredReplicasWithBehaviors` (`pkg/controller/podautoscaler/horizontal.go`) turns the
replica count the metrics propose into the one the autoscaler sets, in two stages. The
stabilization (`stabilizeRecommendationWithBehaviors`) keeps the current count within the lowest
recommendation of the scale-up window and the highest of the scale-down window, the proposal
among them, and records the proposal. The rate limit (`convertDesiredReplicasWithBehaviorRate`)
then holds a change within `minReplicas`, `maxReplicas` and the limits the scaling policies
derive from the recent scale events (`calculateScaleUpLimitWithScalingRules`,
`calculateScaleDownLimitWithBehaviors`).

`normalizeDesiredReplicasWithBehaviors_withinBehavior`: from a current count within
`minReplicas .. maxReplicas`, whatever the history, the count set stays in that range, lies
between the current count and the proposal, and exceeds neither limit in the direction it moves
(`WithinBehavior`). The stabilized count lies between the current count and the proposal
(`stabilized_between`), and the rate limit moves no further from the current count than the
count it is given, within both ranges (`convertDesiredReplicasWithBehaviorRate_spec`).

Times are in nanoseconds and the clock is read once for the call, where the code reads it in
each function. The stabilization windows are set, as API defaulting sets them, so
`maybeInitScaleDownStabilizationWindow` has nothing to fill. The percentage policies compute in
`float64`, each operation rounded (`Go.float64`), and `int32` conversions wrap; the results hold
for any value of the limits.
-/

namespace Kubernetes.Podautoscaler

/-- `autoscalingv2.HPAScalingPolicyType`. -/
inductive HPAScalingPolicyType
  | pods
  | percent
  deriving DecidableEq

/-- `autoscalingv2.HPAScalingPolicy`. -/
structure HPAScalingPolicy where
  type : HPAScalingPolicyType
  value : Int32
  periodSeconds : Int32
  deriving DecidableEq

/-- `autoscalingv2.ScalingPolicySelect`. -/
inductive ScalingPolicySelect
  | max
  | min
  | disabled
  deriving DecidableEq

/-- `autoscalingv2.HPAScalingRules`, with its stabilization window set. -/
structure HPAScalingRules where
  stabilizationWindowSeconds : Int32
  selectPolicy : ScalingPolicySelect
  policies : List HPAScalingPolicy

/-- `timestampedRecommendation`. -/
structure TimestampedRecommendation where
  recommendation : Int32
  timestamp : ℤ
  deriving DecidableEq

/-- `timestampedScaleEvent`: positive for a scale-up, negative for a scale-down. -/
structure TimestampedScaleEvent where
  replicaChange : Int32
  timestamp : ℤ
  outdated : Bool

/-- `NormalizationArg`, without the key the controller's maps are read at. -/
structure NormalizationArg where
  scaleUpBehavior : HPAScalingRules
  scaleDownBehavior : HPAScalingRules
  minReplicas : Int32
  maxReplicas : Int32
  currentReplicas : Int32
  desiredReplicas : Int32

/-- What the controller keeps of one autoscaler between calls: its recommendations and its
scale-up and scale-down events. -/
structure BehaviorState where
  recommendations : List TimestampedRecommendation
  scaleUpEvents : List TimestampedScaleEvent
  scaleDownEvents : List TimestampedScaleEvent

/-- `autoscalingv2.HorizontalPodAutoscalerConditionType`, those set here. -/
inductive ConditionType
  | ableToScale
  | scalingLimited
  deriving DecidableEq

/-- A condition as `setCondition` sets it: its type, whether it holds, its reason and message. -/
structure Condition where
  type : ConditionType
  status : Bool
  reason : String
  message : String
  deriving DecidableEq

/-- An autoscaler's spec, as normalization reads it. -/
structure HPASpec where
  scaleUp : HPAScalingRules
  scaleDown : HPAScalingRules
  maxReplicas : Int32

/-- `time.Second * time.Duration(seconds)`, in nanoseconds. -/
def seconds (s : Int32) : ℤ := 1000000000 * s.toInt

/-! ## Stabilization -/

/-- The body of the loop of `stabilizeRecommendationWithBehaviors` over the recommendations: the
lowest recommendation after `upCutoff`, the highest after `downCutoff`, and the last index of
one older than both. -/
def stabilizeStep (upCutoff downCutoff : ℤ) (acc : Int32 × Int32 × Option ℕ)
    (rec : TimestampedRecommendation × ℕ) : Int32 × Int32 × Option ℕ :=
  let (upRecommendation, downRecommendation, oldSampleIndex) := acc
  let upRecommendation := if upCutoff < rec.1.timestamp then
    min rec.1.recommendation upRecommendation else upRecommendation
  let downRecommendation := if downCutoff < rec.1.timestamp then
    max rec.1.recommendation downRecommendation else downRecommendation
  let oldSampleIndex := if rec.1.timestamp < upCutoff ∧ rec.1.timestamp < downCutoff then
    some rec.2 else oldSampleIndex
  (upRecommendation, downRecommendation, oldSampleIndex)

/-- `stabilizeRecommendationWithBehaviors(args)` at `now`: the current count brought within the
lowest recent recommendation and the highest, the reason and message, and the recommendations
with the proposal recorded in place of an old sample or after them. -/
def stabilizeRecommendationWithBehaviors (now : ℤ) (recommendations : List TimestampedRecommendation)
    (args : NormalizationArg) : Int32 × String × String × List TimestampedRecommendation :=
  let upCutoff := now - seconds args.scaleUpBehavior.stabilizationWindowSeconds
  let downCutoff := now - seconds args.scaleDownBehavior.stabilizationWindowSeconds
  let (upRecommendation, downRecommendation, oldSampleIndex) :=
    recommendations.zipIdx.foldl (stabilizeStep upCutoff downCutoff)
      (args.desiredReplicas, args.desiredReplicas, none)
  let recommendation := args.currentReplicas
  let recommendation := if recommendation < upRecommendation then upRecommendation
    else recommendation
  let recommendation := if recommendation > downRecommendation then downRecommendation
    else recommendation
  let newSample : TimestampedRecommendation := ⟨args.desiredReplicas, now⟩
  let recommendations := match oldSampleIndex with
    | some i => recommendations.set i newSample
    | none => recommendations ++ [newSample]
  if args.desiredReplicas ≥ args.currentReplicas then
    (recommendation, "ScaleUpStabilized",
      "recent recommendations were lower than current one, applying the lowest recent recommendation",
      recommendations)
  else
    (recommendation, "ScaleDownStabilized",
      "recent recommendations were higher than current one, applying the highest recent recommendation",
      recommendations)

/-! ## Rate limits -/

/-- `getReplicasChangePerPeriod(periodSeconds, scaleEvents)` at `now`: the replicas the events
within the period changed. -/
def getReplicasChangePerPeriod (now : ℤ) (periodSeconds : Int32)
    (scaleEvents : List TimestampedScaleEvent) : Int32 :=
  let cutoff := now - seconds periodSeconds
  scaleEvents.foldl (fun replicas rec =>
    if cutoff < rec.timestamp then replicas + rec.replicaChange else replicas) 0

/-- `calculateScaleUpLimitWithScalingRules(currentReplicas, scaleEvents, scalingRules)` at `now`:
the highest count the policies allow, from the count at the start of each period, the lowest
of them under the `Min` policy; the current count when scaling is disabled. -/
def calculateScaleUpLimitWithScalingRules (now : ℤ) (currentReplicas : Int32)
    (scaleEvents : List TimestampedScaleEvent) (scalingRules : HPAScalingRules) : Int32 :=
  if scalingRules.selectPolicy = .disabled then currentReplicas
  else
    let minPolicy := scalingRules.selectPolicy = .min
    scalingRules.policies.foldl (fun result policy =>
      let replicasAddedInCurrentPeriod :=
        getReplicasChangePerPeriod now policy.periodSeconds scaleEvents
      let periodStartReplicas := currentReplicas - replicasAddedInCurrentPeriod
      let proposed := match policy.type with
        | .pods => periodStartReplicas + policy.value
        -- `math.Ceil(float64(periodStartReplicas) * (1 + float64(policy.Value)/100))`
        | .percent =>
          Int32.ofInt ⌈Go.float64 (periodStartReplicas.toInt *
            Go.float64 (1 + Go.float64 (policy.value.toInt / 100)))⌉
      if minPolicy then min result proposed else max result proposed)
      (if minPolicy then Int32.maxValue else Int32.minValue)

-- `1.1` is a little above `11 / 10` as a `float64`, so `100` replicas at `+10%` may grow to `111`
example : calculateScaleUpLimitWithScalingRules 0 100 [] ⟨0, .max, [⟨.percent, 10, 60⟩]⟩ = 111 := by
  decide +kernel

/-- `calculateScaleDownLimitWithBehaviors(currentReplicas, scaleEvents, scalingRules)` at `now`:
the lowest count the policies allow, the highest of them under the `Min` policy; the current
count when scaling is disabled. -/
def calculateScaleDownLimitWithBehaviors (now : ℤ) (currentReplicas : Int32)
    (scaleEvents : List TimestampedScaleEvent) (scalingRules : HPAScalingRules) : Int32 :=
  if scalingRules.selectPolicy = .disabled then currentReplicas
  else
    let minPolicy := scalingRules.selectPolicy = .min
    scalingRules.policies.foldl (fun result policy =>
      let replicasDeletedInCurrentPeriod :=
        getReplicasChangePerPeriod now policy.periodSeconds scaleEvents
      let periodStartReplicas := currentReplicas + replicasDeletedInCurrentPeriod
      let proposed := match policy.type with
        | .pods => periodStartReplicas - policy.value
        -- `int32(float64(periodStartReplicas) * (1 - float64(policy.Value)/100))`
        | .percent =>
          Int32.ofInt (Go.truncate (Go.float64 (periodStartReplicas.toInt *
            Go.float64 (1 - Go.float64 (policy.value.toInt / 100)))))
      if minPolicy then max result proposed else min result proposed)
      (if minPolicy then Int32.minValue else Int32.maxValue)

-- `1 - 0.9` is a little below `1 / 10` as a `float64`, so `10` replicas at `-90%` may shrink to `0`
example : calculateScaleDownLimitWithBehaviors 0 10 [] ⟨0, .max, [⟨.percent, 90, 60⟩]⟩ = 0 := by
  decide +kernel

/-- `convertDesiredReplicasWithBehaviorRate(args)` at `now`: a change held within
`minReplicas`, `maxReplicas` and the limit of its direction, with the reason and message. -/
def convertDesiredReplicasWithBehaviorRate (now : ℤ) (state : BehaviorState)
    (args : NormalizationArg) : Int32 × String × String :=
  if args.desiredReplicas > args.currentReplicas then
    let scaleUpLimit := calculateScaleUpLimitWithScalingRules now args.currentReplicas
      state.scaleUpEvents args.scaleUpBehavior
    -- no further scale-up until the events age out
    let scaleUpLimit := if scaleUpLimit < args.currentReplicas then args.currentReplicas
      else scaleUpLimit
    let (maximumAllowedReplicas, possibleLimitingReason, possibleLimitingMessage) :=
      if args.maxReplicas > scaleUpLimit then
        (scaleUpLimit, "ScaleUpLimit",
          "the desired replica count is increasing faster than the maximum scale rate")
      else
        (args.maxReplicas, "TooManyReplicas",
          "the desired replica count is more than the maximum replica count")
    if args.desiredReplicas > maximumAllowedReplicas then
      (maximumAllowedReplicas, possibleLimitingReason, possibleLimitingMessage)
    else
      (args.desiredReplicas, "DesiredWithinRange", "the desired count is within the acceptable range")
  else if args.desiredReplicas < args.currentReplicas then
    let scaleDownLimit := calculateScaleDownLimitWithBehaviors now args.currentReplicas
      state.scaleDownEvents args.scaleDownBehavior
    let scaleDownLimit := if scaleDownLimit > args.currentReplicas then args.currentReplicas
      else scaleDownLimit
    let (minimumAllowedReplicas, possibleLimitingReason, possibleLimitingMessage) :=
      if args.minReplicas < scaleDownLimit then
        (scaleDownLimit, "ScaleDownLimit",
          "the desired replica count is decreasing faster than the maximum scale rate")
      else
        (args.minReplicas, "TooFewReplicas",
          "the desired replica count is less than the minimum replica count")
    if args.desiredReplicas < minimumAllowedReplicas then
      (minimumAllowedReplicas, possibleLimitingReason, possibleLimitingMessage)
    else
      (args.desiredReplicas, "DesiredWithinRange", "the desired count is within the acceptable range")
  else
    (args.desiredReplicas, "DesiredWithinRange", "the desired count is within the acceptable range")

/-- `normalizeDesiredReplicasWithBehaviors(hpa, key, currentReplicas,
prenormalizedDesiredReplicas, minReplicas)` at `now`: the count to set, the `AbleToScale` and
`ScalingLimited` conditions, and the history with the proposal recorded. -/
def normalizeDesiredReplicasWithBehaviors (now : ℤ) (state : BehaviorState) (hpa : HPASpec)
    (currentReplicas prenormalizedDesiredReplicas minReplicas : Int32) :
    Int32 × List Condition × BehaviorState :=
  let normalizationArg : NormalizationArg :=
    ⟨hpa.scaleUp, hpa.scaleDown, minReplicas, hpa.maxReplicas, currentReplicas,
      prenormalizedDesiredReplicas⟩
  let (stabilizedRecommendation, reason, message, recommendations) :=
    stabilizeRecommendationWithBehaviors now state.recommendations normalizationArg
  let ableToScale : Condition := if stabilizedRecommendation ≠ prenormalizedDesiredReplicas then
    ⟨.ableToScale, true, reason, message⟩
    else ⟨.ableToScale, true, "ReadyForNewScale", "recommended size matches current size"⟩
  let (desiredReplicas, reason, message) := convertDesiredReplicasWithBehaviorRate now state
    { normalizationArg with desiredReplicas := stabilizedRecommendation }
  let scalingLimited : Condition :=
    ⟨.scalingLimited, desiredReplicas ≠ stabilizedRecommendation, reason, message⟩
  (desiredReplicas, [ableToScale, scalingLimited], { state with recommendations })

/-! ## What the stabilization and the rate limit keep to -/

/-- What the count an autoscaler sets keeps to, from the current count and the proposal: the
range of the autoscaler, a place between the current count and the proposal (so the change
never opposes the proposal nor passes it), and the limit of the direction it moves. -/
@[mk_iff]
structure WithinBehavior (minReplicas maxReplicas current proposal upLimit downLimit d : Int32) :
    Prop where
  min_le : minReplicas ≤ d
  le_max : d ≤ maxReplicas
  between : current ≤ d ∧ d ≤ proposal ∨ proposal ≤ d ∧ d ≤ current
  le_upLimit : current < d → d ≤ upLimit
  downLimit_le : d < current → downLimit ≤ d

/-- A step of the stabilization loop keeps the proposal between the lowest and the highest
recommendation. -/
theorem stabilizeStep_bounds {upCutoff downCutoff : ℤ} {proposal : Int32}
    {acc : Int32 × Int32 × Option ℕ} (rec : TimestampedRecommendation × ℕ)
    (h : acc.1.toInt ≤ proposal.toInt ∧ proposal.toInt ≤ acc.2.1.toInt) :
    (stabilizeStep upCutoff downCutoff acc rec).1.toInt ≤ proposal.toInt ∧
      proposal.toInt ≤ (stabilizeStep upCutoff downCutoff acc rec).2.1.toInt := by
  obtain ⟨up, down, old⟩ := acc
  unfold stabilizeStep
  dsimp only at h ⊢
  constructor
  · split
    · rw [Go.int32_toInt_min]
      omega
    · exact h.1
  · split
    · rw [Go.int32_toInt_max]
      omega
    · exact h.2

theorem foldl_stabilizeStep_bounds {upCutoff downCutoff : ℤ} {proposal : Int32}
    (recs : List (TimestampedRecommendation × ℕ)) (acc : Int32 × Int32 × Option ℕ)
    (h : acc.1.toInt ≤ proposal.toInt ∧ proposal.toInt ≤ acc.2.1.toInt) :
    (recs.foldl (stabilizeStep upCutoff downCutoff) acc).1.toInt ≤ proposal.toInt ∧
      proposal.toInt ≤ (recs.foldl (stabilizeStep upCutoff downCutoff) acc).2.1.toInt := by
  induction recs generalizing acc with
  | nil => exact h
  | cons rec recs ih => exact ih _ (stabilizeStep_bounds rec h)

/-- The stabilized count is the current count brought within a lowest and a highest
recommendation, the proposal between them. -/
theorem stabilizeRecommendationWithBehaviors_fst (now : ℤ)
    (recommendations : List TimestampedRecommendation) (args : NormalizationArg) :
    ∃ up down : Int32, up.toInt ≤ args.desiredReplicas.toInt ∧
      args.desiredReplicas.toInt ≤ down.toInt ∧
      (stabilizeRecommendationWithBehaviors now recommendations args).1.toInt =
        min (max args.currentReplicas.toInt up.toInt) down.toInt := by
  unfold stabilizeRecommendationWithBehaviors
  dsimp only
  generalize hfold : recommendations.zipIdx.foldl _ _ = result
  obtain ⟨up, down, old⟩ := result
  have hbounds := @foldl_stabilizeStep_bounds
    (now - seconds args.scaleUpBehavior.stabilizationWindowSeconds)
    (now - seconds args.scaleDownBehavior.stabilizationWindowSeconds) args.desiredReplicas
    recommendations.zipIdx (args.desiredReplicas, args.desiredReplicas, none) ⟨le_refl _, le_refl _⟩
  rw [hfold] at hbounds
  refine ⟨up, down, hbounds.1, hbounds.2, ?_⟩
  simp only [apply_ite (fun x : Int32 × String × String × List TimestampedRecommendation => x.1),
    ite_self]
  split <;> split <;> rename_i h₁ h₂ <;> simp only [GT.gt, Int32.lt_iff_toInt_lt] at h₁ h₂ <;>
    omega

/-- **The stabilized count lies between the current count and the proposal.** -/
theorem stabilized_between (now : ℤ) (recommendations : List TimestampedRecommendation)
    (args : NormalizationArg) :
    args.currentReplicas ≤ (stabilizeRecommendationWithBehaviors now recommendations args).1 ∧
        (stabilizeRecommendationWithBehaviors now recommendations args).1 ≤ args.desiredReplicas ∨
      args.desiredReplicas ≤ (stabilizeRecommendationWithBehaviors now recommendations args).1 ∧
        (stabilizeRecommendationWithBehaviors now recommendations args).1 ≤ args.currentReplicas := by
  obtain ⟨up, down, hup, hdown, hr⟩ := stabilizeRecommendationWithBehaviors_fst now recommendations args
  simp only [Int32.le_iff_toInt_le, hr]
  omega

section Convert

variable (now : ℤ) (state : BehaviorState) (args : NormalizationArg)

/-- Scaling up, the rate limit takes the lowest of the count given, `maxReplicas` and the
scale-up limit, the limit raised to the current count. -/
theorem convertDesiredReplicasWithBehaviorRate_up
    (hup : args.currentReplicas < args.desiredReplicas) :
    (convertDesiredReplicasWithBehaviorRate now state args).1.toInt =
      min args.desiredReplicas.toInt (min args.maxReplicas.toInt
        (max (calculateScaleUpLimitWithScalingRules now args.currentReplicas state.scaleUpEvents
          args.scaleUpBehavior).toInt args.currentReplicas.toInt)) := by
  unfold convertDesiredReplicasWithBehaviorRate
  rw [if_pos hup]
  dsimp only
  split_ifs <;> simp only [GT.gt, Int32.lt_iff_toInt_lt] at * <;> omega

/-- Scaling down, it takes the highest of the count given, `minReplicas` and the scale-down
limit, the limit lowered to the current count. -/
theorem convertDesiredReplicasWithBehaviorRate_down
    (hdown : args.desiredReplicas < args.currentReplicas) :
    (convertDesiredReplicasWithBehaviorRate now state args).1.toInt =
      max args.desiredReplicas.toInt (max args.minReplicas.toInt
        (min (calculateScaleDownLimitWithBehaviors now args.currentReplicas state.scaleDownEvents
          args.scaleDownBehavior).toInt args.currentReplicas.toInt)) := by
  unfold convertDesiredReplicasWithBehaviorRate
  have hdown' := Int32.lt_iff_toInt_lt.mp hdown
  rw [if_neg (by rw [GT.gt, Int32.lt_iff_toInt_lt]; omega), if_pos hdown]
  dsimp only
  split_ifs <;> simp only [GT.gt, Int32.lt_iff_toInt_lt] at * <;> omega

/-- With no change proposed, it changes nothing. -/
theorem convertDesiredReplicasWithBehaviorRate_same
    (hsame : args.desiredReplicas = args.currentReplicas) :
    (convertDesiredReplicasWithBehaviorRate now state args).1 = args.desiredReplicas := by
  unfold convertDesiredReplicasWithBehaviorRate
  rw [hsame, if_neg (by rw [GT.gt, Int32.lt_iff_toInt_lt]; omega),
    if_neg (by rw [Int32.lt_iff_toInt_lt]; omega)]

/-- **The rate limit keeps to the autoscaler's range and to the limits**, from a current count
within the range, and moves no further than the count it is given. -/
theorem convertDesiredReplicasWithBehaviorRate_spec
    (hmin : args.minReplicas ≤ args.currentReplicas)
    (hmax : args.currentReplicas ≤ args.maxReplicas) :
    WithinBehavior args.minReplicas args.maxReplicas args.currentReplicas args.desiredReplicas
      (calculateScaleUpLimitWithScalingRules now args.currentReplicas state.scaleUpEvents
        args.scaleUpBehavior)
      (calculateScaleDownLimitWithBehaviors now args.currentReplicas state.scaleDownEvents
        args.scaleDownBehavior)
      (convertDesiredReplicasWithBehaviorRate now state args).1 := by
  rw [Int32.le_iff_toInt_le] at hmin hmax
  simp only [withinBehavior_iff, Int32.le_iff_toInt_le, Int32.lt_iff_toInt_lt]
  rcases lt_trichotomy args.currentReplicas.toInt args.desiredReplicas.toInt with hlt | heq | hgt
  · have := convertDesiredReplicasWithBehaviorRate_up now state args (Int32.lt_iff_toInt_lt.mpr hlt)
    omega
  · have := convertDesiredReplicasWithBehaviorRate_same now state args (Int32.toInt_inj.mp heq.symm)
    rw [this]
    omega
  · have := convertDesiredReplicasWithBehaviorRate_down now state args (Int32.lt_iff_toInt_lt.mpr hgt)
    omega

end Convert

/-- **The count an autoscaler with behaviors sets keeps to its range, to the side of the
proposal and to the rate limits**: from a current count within `minReplicas .. maxReplicas`,
whatever the recommendations and scale events recorded, the count
`normalizeDesiredReplicasWithBehaviors` returns lies within the range, between the current count
and the proposal, at most the scale-up limit when it is above the current count and at least the
scale-down limit when it is below. -/
theorem normalizeDesiredReplicasWithBehaviors_withinBehavior (now : ℤ) (state : BehaviorState)
    (hpa : HPASpec) {currentReplicas minReplicas : Int32} (proposal : Int32)
    (hmin : minReplicas ≤ currentReplicas) (hmax : currentReplicas ≤ hpa.maxReplicas) :
    WithinBehavior minReplicas hpa.maxReplicas currentReplicas proposal
      (calculateScaleUpLimitWithScalingRules now currentReplicas state.scaleUpEvents hpa.scaleUp)
      (calculateScaleDownLimitWithBehaviors now currentReplicas state.scaleDownEvents hpa.scaleDown)
      (normalizeDesiredReplicasWithBehaviors now state hpa currentReplicas proposal
        minReplicas).1 := by
  set args : NormalizationArg :=
    ⟨hpa.scaleUp, hpa.scaleDown, minReplicas, hpa.maxReplicas, currentReplicas, proposal⟩
  have hd : (normalizeDesiredReplicasWithBehaviors now state hpa currentReplicas proposal
      minReplicas).1 = (convertDesiredReplicasWithBehaviorRate now state { args with
        desiredReplicas := (stabilizeRecommendationWithBehaviors now state.recommendations
          args).1 }).1 := rfl
  have hstable := stabilized_between now state.recommendations args
  obtain ⟨hmin', hmax', hbetween, hup, hdown⟩ :=
    convertDesiredReplicasWithBehaviorRate_spec now state { args with
      desiredReplicas := (stabilizeRecommendationWithBehaviors now state.recommendations args).1 }
      hmin hmax
  rw [hd]
  refine ⟨hmin', hmax', ?_, hup, hdown⟩
  have hcur : args.currentReplicas.toInt = currentReplicas.toInt := rfl
  have hprop : args.desiredReplicas.toInt = proposal.toInt := rfl
  simp only [Int32.le_iff_toInt_le] at hbetween hstable ⊢
  omega

/-- The behaviors `autoscaling/v2` defaults to, for an autoscaler of at most five replicas:
scale up at once by `100%` or `4` pods per `15` seconds, the larger; scale down after a window of
`300` seconds by `100%` per `15` seconds. -/
def defaultBehaviorHPA : HPASpec :=
  ⟨⟨0, .max, [⟨.percent, 100, 15⟩, ⟨.pods, 4, 15⟩]⟩, ⟨300, .max, [⟨.percent, 100, 15⟩]⟩, 5⟩

theorem normalizeDesiredReplicasWithBehaviors_withinBehavior_defaultBehaviorHPA :
    (1 : Int32) ≤ 2 ∧ (2 : Int32) ≤ defaultBehaviorHPA.maxReplicas ∧
      WithinBehavior 1 defaultBehaviorHPA.maxReplicas 2 10
        (calculateScaleUpLimitWithScalingRules 0 2 [] defaultBehaviorHPA.scaleUp)
        (calculateScaleDownLimitWithBehaviors 0 2 [] defaultBehaviorHPA.scaleDown)
        (normalizeDesiredReplicasWithBehaviors 0 ⟨[], [], []⟩ defaultBehaviorHPA 2 10 1).1 :=
  ⟨by decide, by decide,
    normalizeDesiredReplicasWithBehaviors_withinBehavior 0 ⟨[], [], []⟩ defaultBehaviorHPA 10
      (by decide) (by decide)⟩

/-- Scale-up rules of one `Pods` policy adding `math.MaxInt32` replicas per minute, which
`validateScalingPolicy` accepts: the value is positive and has no upper bound. -/
def maxPodsScaleUp : HPAScalingRules := ⟨0, .max, [⟨.pods, 2147483647, 60⟩]⟩

theorem calculateScaleUpLimit_wraps_below_current :
    (calculateScaleUpLimitWithScalingRules 0 5 [] maxPodsScaleUp).toInt = 5 + 2147483647 - 2 ^ 32 ∧
      calculateScaleUpLimitWithScalingRules 0 5 [] maxPodsScaleUp < 5 := by
  decide

end Kubernetes.Podautoscaler
