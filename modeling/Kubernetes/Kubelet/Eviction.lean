import Mathlib

/-!
# The eviction manager's thresholds and node conditions

`pkg/kubelet/eviction/eviction_manager.go`, `synchronize`, with `thresholdsMet`,
`mergeThresholds`, `hasThreshold`, `compareThresholdValue`, `thresholdsFirstObservedAt`,
`thresholdsMetGracePeriod`, `nodeConditions`, `nodeConditionsLastObservedAt` and
`nodeConditionsObservedSince` of `helpers.go`. Each call observes the signals. A threshold is
active when what is available is below its value, or below its value plus its minimum reclaim
for a threshold met at the previous call. It is met once it has been active for its grace
period without a break. A node condition holds while a threshold of its signal was active within
the pressure transition period.

* `managerAt_nodeConditions`: over every run with a monotone clock, a node condition holds after
  a call exactly when a threshold of its signal was active within the transition period.
* `managerAt_thresholdsMet`: where no two configured thresholds agree on all that
  `hasThreshold` compares, a threshold is met after a call exactly when it has been active at
  every call of a stretch at least its grace period long.
* `managerAt_drops_active_threshold`: `ParseThresholdConfig` can give two thresholds that differ
  only in their minimum reclaim, when it copies a hard threshold on available memory next to a
  configured one on the memory available for pods; `mergeThresholds` merges them into one, so
  one of them is dropped while active.

Go maps are lists of pairs; a key listed twice has one value. The observations' times and
`thresholdsUpdatedStats`, which only choose the pods to evict, are left out. So are the notifiers
and the ranking functions. `GetThresholdQuantity` of a percentage is taken with exact rationals.
`ParseThresholdConfig` is given its statements parsed: the signal names, quantities, percentages
and durations as the parsers of `resource`, `strconv` and `time` read them.
-/

namespace Kubernetes.Eviction

/-- `evictionapi.Signal`. -/
inductive Signal
  | memoryAvailable
  | nodeFsAvailable
  | nodeFsInodesFree
  | imageFsAvailable
  | imageFsInodesFree
  | allocatableMemoryAvailable
  | pidAvailable
  deriving DecidableEq, Repr

/-- `evictionapi.ThresholdOperator`. -/
inductive ThresholdOperator
  | opLessThan
  deriving DecidableEq, Repr

/-- `evictionapi.ThresholdValue`: a quantity, or a percentage of the capacity. -/
structure ThresholdValue where
  quantity : Option ℤ
  percentage : ℚ
  deriving DecidableEq, Repr

/-- `evictionapi.Threshold`. -/
structure Threshold where
  signal : Signal
  operator : ThresholdOperator
  value : ThresholdValue
  gracePeriod : ℤ
  minReclaim : Option ThresholdValue
  deriving DecidableEq, Repr

/-- `v1.NodeConditionType`, of the conditions a signal maps to. -/
inductive NodeConditionType
  | memoryPressure
  | diskPressure
  | pidPressure
  deriving DecidableEq, Repr

/-- `signalToNodeCondition`. -/
def signalToNodeCondition : Signal → Option NodeConditionType
  | .memoryAvailable => some .memoryPressure
  | .allocatableMemoryAvailable => some .memoryPressure
  | .imageFsAvailable => some .diskPressure
  | .nodeFsAvailable => some .diskPressure
  | .imageFsInodesFree => some .diskPressure
  | .nodeFsInodesFree => some .diskPressure
  | .pidAvailable => some .pidPressure

/-- `signalObservation`: what is available, of what capacity. -/
structure SignalObservation where
  available : ℤ
  capacity : ℤ
  deriving DecidableEq, Repr

/-- `evictionapi.GetThresholdQuantity(value, capacity)`. -/
def getThresholdQuantity (value : ThresholdValue) (capacity : ℤ) : ℤ :=
  match value.quantity with
  | some quantity => quantity
  | none => ⌊(capacity : ℚ) * value.percentage⌋

/-! ## The helpers of `synchronize` -/

/-- The test `thresholdsMet` makes of one threshold: its quantity, plus its minimum reclaim where
`enforceMinReclaim`, exceeds what is available. -/
def thresholdMet (observations : Signal → Option SignalObservation) (enforceMinReclaim : Bool)
    (threshold : Threshold) : Bool :=
  match observations threshold.signal with
  | none => false
  | some observed =>
    let quantity := getThresholdQuantity threshold.value observed.capacity
    let quantity := match enforceMinReclaim, threshold.minReclaim with
      | true, some minReclaim => quantity + getThresholdQuantity minReclaim observed.capacity
      | _, _ => quantity
    match threshold.operator with
    | .opLessThan => decide (quantity > observed.available)

/-- `thresholdsMet(thresholds, observations, enforceMinReclaim)`. -/
def thresholdsMet (thresholds : List Threshold) (observations : Signal → Option SignalObservation)
    (enforceMinReclaim : Bool) : List Threshold :=
  thresholds.filter (thresholdMet observations enforceMinReclaim)

/-- `compareThresholdValue(a, b)`. -/
def compareThresholdValue (a b : ThresholdValue) : Bool :=
  match a.quantity, b.quantity with
  | some qa, some qb => qa = qb
  | some _, none => false
  | none, some _ => false
  | none, none => a.percentage = b.percentage

/-- The test `hasThreshold` makes of one input: everything but the minimum reclaim agrees. -/
def sameThreshold (input item : Threshold) : Bool :=
  input.gracePeriod = item.gracePeriod ∧ input.operator = item.operator ∧
    input.signal = item.signal ∧ compareThresholdValue input.value item.value

/-- `hasThreshold(inputs, item)`. -/
def hasThreshold (inputs : List Threshold) (item : Threshold) : Bool :=
  inputs.any fun input => sameThreshold input item

/-- One turn of `mergeThresholds`' loop. -/
def mergeStep (results : List Threshold) (threshold : Threshold) : List Threshold :=
  if hasThreshold results threshold then results else results ++ [threshold]

/-- `mergeThresholds(inputsA, inputsB)`. -/
def mergeThresholds (inputsA inputsB : List Threshold) : List Threshold :=
  inputsB.foldl mergeStep inputsA

/-- `thresholdsFirstObservedAt(thresholds, lastObservedAt, now)`: each threshold keeps the time
it was first observed at, or is observed now. -/
def thresholdsFirstObservedAt (thresholds : List Threshold) (lastObservedAt : List (Threshold × ℤ))
    (now : ℤ) : List (Threshold × ℤ) :=
  thresholds.map fun threshold => (threshold, (lastObservedAt.lookup threshold).getD now)

/-- `thresholdsMetGracePeriod(observedAt, now)`. -/
def thresholdsMetGracePeriod (observedAt : List (Threshold × ℤ)) (now : ℤ) : List Threshold :=
  (observedAt.filter fun entry => ¬(now - entry.2 < entry.1.gracePeriod)).map Prod.fst

/-- One turn of `nodeConditions`' loop. -/
def nodeConditionStep (results : List NodeConditionType) (threshold : Threshold) :
    List NodeConditionType :=
  match signalToNodeCondition threshold.signal with
  | some nodeCondition => if nodeCondition ∈ results then results else results ++ [nodeCondition]
  | none => results

/-- `nodeConditions(thresholds)`. -/
def nodeConditions (thresholds : List Threshold) : List NodeConditionType :=
  thresholds.foldl nodeConditionStep []

/-- `nodeConditionsLastObservedAt(nodeConditions, lastObservedAt, now)`: the conditions observed
now, and the others at their old time. -/
def nodeConditionsLastObservedAt (nodeConditions : List NodeConditionType)
    (lastObservedAt : List (NodeConditionType × ℤ)) (now : ℤ) : List (NodeConditionType × ℤ) :=
  nodeConditions.map (fun nodeCondition => (nodeCondition, now)) ++
    lastObservedAt.filter fun entry => entry.1 ∉ nodeConditions

/-- `nodeConditionsObservedSince(observedAt, period, now)`. -/
def nodeConditionsObservedSince (observedAt : List (NodeConditionType × ℤ)) (period now : ℤ) :
    List NodeConditionType :=
  (observedAt.filter fun entry => now - entry.2 < period).map Prod.fst

/-! ## `synchronize` -/

/-- The state `synchronize` keeps between calls. -/
structure Manager where
  thresholdsMet : List Threshold
  thresholdsFirstObservedAt : List (Threshold × ℤ)
  nodeConditions : List NodeConditionType
  nodeConditionsLastObservedAt : List (NodeConditionType × ℤ)
  deriving DecidableEq, Repr

/-- A manager that has not synchronized yet. -/
def Manager.empty : Manager := ⟨[], [], [], []⟩

/-- The thresholds met independent of grace period, merged with those previously met whose
minimum reclaim is not yet satisfied. -/
def observedThresholds (thresholds : List Threshold) (observations : Signal → Option SignalObservation)
    (thresholdsMetBefore : List Threshold) : List Threshold :=
  let met := thresholdsMet thresholds observations false
  if thresholdsMetBefore ≠ [] then
    mergeThresholds met (thresholdsMet thresholdsMetBefore observations true)
  else met

/-- `synchronize`, with `summary` the observations made, or `none` where the summary could not be
obtained, and the `LocalStorageCapacityIsolation` gate. -/
def synchronize (thresholds : List Threshold) (localStorageCapacityIsolation : Bool)
    (pressureTransitionPeriod : ℤ) (summary : Option (Signal → Option SignalObservation))
    (now : ℤ) (m : Manager) : Manager :=
  if thresholds = [] ∧ !localStorageCapacityIsolation then m
  else
    match summary with
    | none => m
    | some observations =>
      let observed := observedThresholds thresholds observations m.thresholdsMet
      let thresholdsFirstObservedAt := thresholdsFirstObservedAt observed m.thresholdsFirstObservedAt now
      let nodeConditionsLastObservedAt :=
        nodeConditionsLastObservedAt (nodeConditions observed) m.nodeConditionsLastObservedAt now
      { thresholdsMet := thresholdsMetGracePeriod thresholdsFirstObservedAt now
        thresholdsFirstObservedAt := thresholdsFirstObservedAt
        nodeConditions :=
          nodeConditionsObservedSince nodeConditionsLastObservedAt pressureTransitionPeriod now
        nodeConditionsLastObservedAt := nodeConditionsLastObservedAt }

/-- The manager after `k` calls that each obtained a summary: the `i`-th at `now i` with
`observations i`. -/
def managerAt (thresholds : List Threshold) (localStorageCapacityIsolation : Bool)
    (pressureTransitionPeriod : ℤ) (now : ℕ → ℤ)
    (observations : ℕ → Signal → Option SignalObservation) : ℕ → Manager
  | 0 => Manager.empty
  | k + 1 => synchronize thresholds localStorageCapacityIsolation pressureTransitionPeriod
      (some (observations k)) (now k)
      (managerAt thresholds localStorageCapacityIsolation pressureTransitionPeriod now observations k)

/-! ## What a call computes -/

/-- The quantity of the threshold's minimum reclaim, 0 where it has none. -/
def minReclaimQuantity (threshold : Threshold) (capacity : ℤ) : ℤ :=
  match threshold.minReclaim with
  | some minReclaim => getThresholdQuantity minReclaim capacity
  | none => 0

/-- A threshold active at a call, with `thresholdsMetBefore` the thresholds met after the call
before: its signal is observed, and what is available is below its value, or, for a threshold
met before, below its value plus its minimum reclaim. -/
def ActiveAt (observations : Signal → Option SignalObservation) (thresholdsMetBefore : List Threshold)
    (threshold : Threshold) : Prop :=
  ∃ observed, observations threshold.signal = some observed ∧
    (observed.available < getThresholdQuantity threshold.value observed.capacity ∨
      threshold ∈ thresholdsMetBefore ∧
        observed.available < getThresholdQuantity threshold.value observed.capacity +
          minReclaimQuantity threshold observed.capacity)

theorem thresholdMet_eq_true_iff (observations : Signal → Option SignalObservation)
    (enforceMinReclaim : Bool) (threshold : Threshold) :
    thresholdMet observations enforceMinReclaim threshold = true ↔
      ∃ observed, observations threshold.signal = some observed ∧
        observed.available < getThresholdQuantity threshold.value observed.capacity +
          (if enforceMinReclaim then minReclaimQuantity threshold observed.capacity else 0) := by
  unfold thresholdMet minReclaimQuantity
  cases observations threshold.signal with
  | none => simp
  | some observed =>
    cases enforceMinReclaim <;> cases threshold.minReclaim <;> cases threshold.operator <;> simp

theorem activeAt_iff (observations : Signal → Option SignalObservation)
    (thresholdsMetBefore : List Threshold) (threshold : Threshold) :
    ActiveAt observations thresholdsMetBefore threshold ↔
      thresholdMet observations false threshold = true ∨
        threshold ∈ thresholdsMetBefore ∧ thresholdMet observations true threshold = true := by
  simp only [ActiveAt, thresholdMet_eq_true_iff, if_false, if_true, add_zero, Bool.false_eq_true]
  constructor
  · rintro ⟨observed, hobs, hvalue | ⟨hbefore, hreclaim⟩⟩
    · exact .inl ⟨observed, hobs, hvalue⟩
    · exact .inr ⟨hbefore, observed, hobs, hreclaim⟩
  · rintro (⟨observed, hobs, hvalue⟩ | ⟨hbefore, observed, hobs, hreclaim⟩)
    · exact ⟨observed, hobs, .inl hvalue⟩
    · exact ⟨observed, hobs, .inr ⟨hbefore, hreclaim⟩⟩

theorem mem_thresholdsMet {thresholds : List Threshold}
    {observations : Signal → Option SignalObservation} {enforceMinReclaim : Bool} {T : Threshold} :
    T ∈ thresholdsMet thresholds observations enforceMinReclaim ↔
      T ∈ thresholds ∧ thresholdMet observations enforceMinReclaim T = true :=
  List.mem_filter

theorem sameThreshold_self (T : Threshold) : sameThreshold T T = true := by
  unfold sameThreshold compareThresholdValue
  cases T.value.quantity <;> simp

theorem signal_eq_of_sameThreshold {a b : Threshold} (h : sameThreshold a b = true) :
    a.signal = b.signal := by
  simp only [sameThreshold, decide_eq_true_eq] at h
  exact h.2.2.1

theorem hasThreshold_eq_true_iff {inputs : List Threshold} {item : Threshold} :
    hasThreshold inputs item = true ↔ ∃ input ∈ inputs, sameThreshold input item = true := by
  simp [hasThreshold]

/-! ### `mergeThresholds` -/

theorem mem_mergeStep {results : List Threshold} {threshold T : Threshold} :
    T ∈ mergeStep results threshold ↔
      T ∈ results ∨ T = threshold ∧ hasThreshold results threshold = false := by
  unfold mergeStep
  split <;> simp_all

theorem mem_mergeThresholds_of_mem_left {T : Threshold} :
    ∀ {A : List Threshold} (B : List Threshold), T ∈ A → T ∈ mergeThresholds A B
  | _, [], h => h
  | _, b :: B, h => mem_mergeThresholds_of_mem_left (A := mergeStep _ b) B (mem_mergeStep.mpr (.inl h))

theorem mem_mergeThresholds {T : Threshold} :
    ∀ {A B : List Threshold}, T ∈ mergeThresholds A B → T ∈ A ∨ T ∈ B
  | _, [], h => .inl h
  | _, b :: B, h => by
    rcases mem_mergeThresholds (A := mergeStep _ b) (B := B) h with hstep | hB
    · rcases mem_mergeStep.mp hstep with hA | ⟨rfl, -⟩
      · exact .inl hA
      · exact .inr List.mem_cons_self
    · exact .inr (List.mem_cons_of_mem b hB)

/-- Every threshold of the second list is in the merge, or one that agrees with it on all that
`hasThreshold` compares. -/
theorem exists_sameThreshold_mem_mergeThresholds {T : Threshold} :
    ∀ {A B : List Threshold}, T ∈ B → ∃ T' ∈ mergeThresholds A B, sameThreshold T' T = true
  | _, [], h => absurd h List.not_mem_nil
  | A, b :: B, h => by
    rcases List.mem_cons.mp h with rfl | hB
    · -- `T` itself is added, unless an earlier threshold agreeing with it is kept instead
      by_cases hhas : hasThreshold A T = true
      · obtain ⟨input, hinput, hsame⟩ := hasThreshold_eq_true_iff.mp hhas
        exact ⟨input, mem_mergeThresholds_of_mem_left B (mem_mergeStep.mpr (.inl hinput)), hsame⟩
      · exact ⟨T, mem_mergeThresholds_of_mem_left B
          (mem_mergeStep.mpr (.inr ⟨rfl, by simpa using hhas⟩)), sameThreshold_self T⟩
    · exact exists_sameThreshold_mem_mergeThresholds (A := mergeStep A b) hB

/-! ### The thresholds observed at a call -/

/-- No two thresholds agree on all that `hasThreshold` compares. -/
def Distinct (thresholds : List Threshold) : Prop :=
  ∀ a ∈ thresholds, ∀ b ∈ thresholds, sameThreshold a b = true → a = b

theorem observedThresholds_eq (thresholds : List Threshold)
    (observations : Signal → Option SignalObservation) (thresholdsMetBefore : List Threshold) :
    observedThresholds thresholds observations thresholdsMetBefore =
      mergeThresholds (thresholdsMet thresholds observations false)
        (thresholdsMet thresholdsMetBefore observations true) := by
  unfold observedThresholds
  split
  · rfl
  · rename_i hempty
    rw [not_not.mp hempty]
    rfl

section Observed

variable {thresholds : List Threshold} {observations : Signal → Option SignalObservation}
  {thresholdsMetBefore : List Threshold}

theorem mem_observedThresholds (hbefore : ∀ T ∈ thresholdsMetBefore, T ∈ thresholds) {T : Threshold}
    (h : T ∈ observedThresholds thresholds observations thresholdsMetBefore) :
    T ∈ thresholds ∧ ActiveAt observations thresholdsMetBefore T := by
  rw [observedThresholds_eq] at h
  rcases mem_mergeThresholds h with hmet | hreclaim
  · obtain ⟨hT, hmet⟩ := mem_thresholdsMet.mp hmet
    exact ⟨hT, (activeAt_iff ..).mpr (.inl hmet)⟩
  · obtain ⟨hT, hmet⟩ := mem_thresholdsMet.mp hreclaim
    exact ⟨hbefore T hT, (activeAt_iff ..).mpr (.inr ⟨hT, hmet⟩)⟩

theorem exists_sameThreshold_mem_observedThresholds {T : Threshold} (hT : T ∈ thresholds)
    (hactive : ActiveAt observations thresholdsMetBefore T) :
    ∃ T' ∈ observedThresholds thresholds observations thresholdsMetBefore,
      sameThreshold T' T = true := by
  rw [observedThresholds_eq]
  rcases (activeAt_iff ..).mp hactive with hmet | ⟨hbefore, hmet⟩
  · exact ⟨T, mem_mergeThresholds_of_mem_left _ (mem_thresholdsMet.mpr ⟨hT, hmet⟩),
      sameThreshold_self T⟩
  · exact exists_sameThreshold_mem_mergeThresholds (mem_thresholdsMet.mpr ⟨hbefore, hmet⟩)

/-- Where the thresholds are distinct, those observed at a call are exactly the active ones. -/
theorem mem_observedThresholds_iff (hdistinct : Distinct thresholds)
    (hbefore : ∀ T ∈ thresholdsMetBefore, T ∈ thresholds) {T : Threshold} :
    T ∈ observedThresholds thresholds observations thresholdsMetBefore ↔
      T ∈ thresholds ∧ ActiveAt observations thresholdsMetBefore T := by
  refine ⟨mem_observedThresholds hbefore, fun ⟨hT, hactive⟩ => ?_⟩
  obtain ⟨T', hT', hsame⟩ := exists_sameThreshold_mem_observedThresholds hT hactive
  rwa [hdistinct T' (mem_observedThresholds hbefore hT').1 T hT hsame] at hT'

end Observed

/-! ### The node conditions and the maps -/

theorem mem_nodeConditionStep {results : List NodeConditionType} {threshold : Threshold}
    {C : NodeConditionType} :
    C ∈ nodeConditionStep results threshold ↔
      C ∈ results ∨ signalToNodeCondition threshold.signal = some C := by
  unfold nodeConditionStep
  cases signalToNodeCondition threshold.signal with
  | none => simp
  | some nodeCondition =>
    by_cases hmem : nodeCondition ∈ results
    · simp only [hmem, if_true, Option.some.injEq]
      exact ⟨.inl, fun h => h.elim id fun h => h ▸ hmem⟩
    · simp [hmem, eq_comm]

theorem mem_foldl_nodeConditionStep {C : NodeConditionType} :
    ∀ (thresholds : List Threshold) (results : List NodeConditionType),
      C ∈ thresholds.foldl nodeConditionStep results ↔
        C ∈ results ∨ ∃ T ∈ thresholds, signalToNodeCondition T.signal = some C
  | [], _ => by simp
  | T :: thresholds, results => by
    rw [List.foldl_cons, mem_foldl_nodeConditionStep thresholds, mem_nodeConditionStep]
    simp only [List.mem_cons, exists_eq_or_imp]
    tauto

theorem mem_nodeConditions {thresholds : List Threshold} {C : NodeConditionType} :
    C ∈ nodeConditions thresholds ↔ ∃ T ∈ thresholds, signalToNodeCondition T.signal = some C := by
  simp [nodeConditions, mem_foldl_nodeConditionStep]

theorem mem_thresholdsFirstObservedAt {thresholds : List Threshold}
    {lastObservedAt : List (Threshold × ℤ)} {now : ℤ} {T : Threshold} {time : ℤ} :
    (T, time) ∈ thresholdsFirstObservedAt thresholds lastObservedAt now ↔
      T ∈ thresholds ∧ time = (lastObservedAt.lookup T).getD now := by
  simp [thresholdsFirstObservedAt, eq_comm]

theorem mem_thresholdsMetGracePeriod {observedAt : List (Threshold × ℤ)} {now : ℤ} {T : Threshold} :
    T ∈ thresholdsMetGracePeriod observedAt now ↔
      ∃ time, (T, time) ∈ observedAt ∧ T.gracePeriod ≤ now - time := by
  simp [thresholdsMetGracePeriod]

theorem mem_nodeConditionsLastObservedAt {nodeConditions : List NodeConditionType}
    {lastObservedAt : List (NodeConditionType × ℤ)} {now : ℤ} {C : NodeConditionType} {time : ℤ} :
    (C, time) ∈ nodeConditionsLastObservedAt nodeConditions lastObservedAt now ↔
      C ∈ nodeConditions ∧ time = now ∨ (C, time) ∈ lastObservedAt ∧ C ∉ nodeConditions := by
  unfold nodeConditionsLastObservedAt
  rw [List.mem_append, List.mem_map, List.mem_filter]
  constructor
  · rintro (⟨c, hc, hpair⟩ | ⟨hmem, hnot⟩)
    · obtain ⟨rfl, rfl⟩ := Prod.mk.inj hpair
      exact .inl ⟨hc, rfl⟩
    · exact .inr ⟨hmem, by simpa using hnot⟩
  · rintro (⟨hc, rfl⟩ | ⟨hmem, hnot⟩)
    · exact .inl ⟨C, hc, rfl⟩
    · exact .inr ⟨hmem, by simpa using hnot⟩

theorem mem_nodeConditionsObservedSince {observedAt : List (NodeConditionType × ℤ)}
    {period now : ℤ} {C : NodeConditionType} :
    C ∈ nodeConditionsObservedSince observedAt period now ↔
      ∃ time, (C, time) ∈ observedAt ∧ now - time < period := by
  simp [nodeConditionsObservedSince]

theorem mem_of_lookup_eq_some {l : List (Threshold × ℤ)} {T : Threshold} {time : ℤ}
    (h : l.lookup T = some time) : (T, time) ∈ l := by
  obtain ⟨l₁, l₂, rfl, -⟩ := List.lookup_eq_some_iff.mp h
  simp

theorem lookup_ne_none_of_mem {l : List (Threshold × ℤ)} {T : Threshold} {time : ℤ}
    (h : (T, time) ∈ l) : l.lookup T ≠ none := by
  rw [ne_eq, List.lookup_eq_none_iff]
  intro hall
  simpa using hall _ h

/-! ## Over a run -/

section Run

variable (ts : List Threshold) (gate : Bool) (period : ℤ) (now : ℕ → ℤ)
  (obs : ℕ → Signal → Option SignalObservation)

/-- The thresholds observed at call `k`. -/
def observedAt (k : ℕ) : List Threshold :=
  observedThresholds ts (obs k) (managerAt ts gate period now obs k).thresholdsMet

/-- A node condition of a threshold active at call `k`. -/
def ConditionObservedAt (k : ℕ) (C : NodeConditionType) : Prop :=
  ∃ T ∈ ts, ActiveAt (obs k) (managerAt ts gate period now obs k).thresholdsMet T ∧
    signalToNodeCondition T.signal = some C

/-- A threshold active at every call from `j` to before `k`. -/
def ActiveFrom (j k : ℕ) (T : Threshold) : Prop :=
  ∀ i, j ≤ i → i < k → ActiveAt (obs i) (managerAt ts gate period now obs i).thresholdsMet T

variable {ts}

theorem managerAt_succ (hts : ts ≠ []) (k : ℕ) :
    managerAt ts gate period now obs (k + 1) =
      let m := managerAt ts gate period now obs k
      let first := thresholdsFirstObservedAt (observedAt ts gate period now obs k)
        m.thresholdsFirstObservedAt (now k)
      let last := nodeConditionsLastObservedAt (nodeConditions (observedAt ts gate period now obs k))
        m.nodeConditionsLastObservedAt (now k)
      ⟨thresholdsMetGracePeriod first (now k), first, nodeConditionsObservedSince last period (now k),
        last⟩ := by
  simp [managerAt, synchronize, observedAt, hts]

theorem thresholdsFirstObservedAt_managerAt_succ (hts : ts ≠ []) (k : ℕ) :
    (managerAt ts gate period now obs (k + 1)).thresholdsFirstObservedAt =
      thresholdsFirstObservedAt (observedAt ts gate period now obs k)
        (managerAt ts gate period now obs k).thresholdsFirstObservedAt (now k) := by
  rw [managerAt_succ gate period now obs hts]

theorem thresholdsMet_managerAt_succ (hts : ts ≠ []) (k : ℕ) :
    (managerAt ts gate period now obs (k + 1)).thresholdsMet =
      thresholdsMetGracePeriod (managerAt ts gate period now obs (k + 1)).thresholdsFirstObservedAt
        (now k) := by
  rw [managerAt_succ gate period now obs hts]

theorem nodeConditionsLastObservedAt_managerAt_succ (hts : ts ≠ []) (k : ℕ) :
    (managerAt ts gate period now obs (k + 1)).nodeConditionsLastObservedAt =
      nodeConditionsLastObservedAt (nodeConditions (observedAt ts gate period now obs k))
        (managerAt ts gate period now obs k).nodeConditionsLastObservedAt (now k) := by
  rw [managerAt_succ gate period now obs hts]

theorem nodeConditions_managerAt_succ (hts : ts ≠ []) (k : ℕ) :
    (managerAt ts gate period now obs (k + 1)).nodeConditions =
      nodeConditionsObservedSince (managerAt ts gate period now obs (k + 1)).nodeConditionsLastObservedAt
        period (now k) := by
  rw [managerAt_succ gate period now obs hts]

theorem thresholdsMet_subset (hts : ts ≠ []) :
    ∀ k, ∀ T ∈ (managerAt ts gate period now obs k).thresholdsMet, T ∈ ts
  | 0, _, h => absurd h List.not_mem_nil
  | k + 1, T, h => by
    rw [thresholdsMet_managerAt_succ gate period now obs hts] at h
    obtain ⟨time, hat, -⟩ := mem_thresholdsMetGracePeriod.mp h
    rw [thresholdsFirstObservedAt_managerAt_succ gate period now obs hts] at hat
    exact (mem_observedThresholds (thresholdsMet_subset hts k) (mem_thresholdsFirstObservedAt.mp hat).1).1

theorem mem_nodeConditions_observedAt (hts : ts ≠ []) (k : ℕ) {C : NodeConditionType} :
    C ∈ nodeConditions (observedAt ts gate period now obs k) ↔
      ConditionObservedAt ts gate period now obs k C := by
  rw [mem_nodeConditions]
  constructor
  · rintro ⟨T, hT, hC⟩
    obtain ⟨hconfig, hactive⟩ := mem_observedThresholds (thresholdsMet_subset gate period now obs hts k) hT
    exact ⟨T, hconfig, hactive, hC⟩
  · rintro ⟨T, hconfig, hactive, hC⟩
    obtain ⟨T', hT', hsame⟩ := exists_sameThreshold_mem_observedThresholds hconfig hactive
    exact ⟨T', hT', signal_eq_of_sameThreshold hsame ▸ hC⟩

/-! ### Node conditions -/

/-- The time kept for a node condition is that of a call at which it was observed, the latest. -/
theorem lastObservedAt_latest (hts : ts ≠ []) (hmono : Monotone now) :
    ∀ k {C : NodeConditionType} {time : ℤ},
      (C, time) ∈ (managerAt ts gate period now obs k).nodeConditionsLastObservedAt →
      ∃ i < k, time = now i ∧ ConditionObservedAt ts gate period now obs i C ∧
        ∀ i' < k, ConditionObservedAt ts gate period now obs i' C → now i' ≤ time
  | 0, _, _, h => absurd h List.not_mem_nil
  | k + 1, C, time, h => by
    rw [nodeConditionsLastObservedAt_managerAt_succ gate period now obs hts] at h
    rcases mem_nodeConditionsLastObservedAt.mp h with ⟨hC, rfl⟩ | ⟨hold, hC⟩
    · -- observed now: the latest of all
      refine ⟨k, Nat.lt_succ_self k, rfl, (mem_nodeConditions_observedAt gate period now obs hts k).mp hC,
        fun i' hi' _ => hmono (Nat.lt_succ_iff.mp hi')⟩
    · obtain ⟨i, hi, rfl, hobs, hlatest⟩ := lastObservedAt_latest hts hmono k hold
      refine ⟨i, Nat.lt_succ_of_lt hi, rfl, hobs, fun i' hi' hobs' => ?_⟩
      rcases Nat.lt_succ_iff_lt_or_eq.mp hi' with hlt | rfl
      · exact hlatest i' hlt hobs'
      · exact absurd ((mem_nodeConditions_observedAt gate period now obs hts i').mpr hobs') hC

/-- A node condition observed at some call keeps a time. -/
theorem lastObservedAt_of_observed (hts : ts ≠ []) :
    ∀ k {C : NodeConditionType}, (∃ i < k, ConditionObservedAt ts gate period now obs i C) →
      ∃ time, (C, time) ∈ (managerAt ts gate period now obs k).nodeConditionsLastObservedAt
  | 0, _, ⟨_, hi, _⟩ => absurd hi (Nat.not_lt_zero _)
  | k + 1, C, ⟨i, hi, hobs⟩ => by
    rw [nodeConditionsLastObservedAt_managerAt_succ gate period now obs hts]
    simp only [mem_nodeConditionsLastObservedAt]
    by_cases hnow : C ∈ nodeConditions (observedAt ts gate period now obs k)
    · exact ⟨now k, .inl ⟨hnow, rfl⟩⟩
    · have hik : i < k := by
        rcases Nat.lt_succ_iff_lt_or_eq.mp hi with hlt | rfl
        · exact hlt
        · exact absurd ((mem_nodeConditions_observedAt gate period now obs hts i).mpr hobs) hnow
      obtain ⟨time, hat⟩ := lastObservedAt_of_observed hts k ⟨i, hik, hobs⟩
      exact ⟨time, .inr ⟨hat, hnow⟩⟩

/-- **Node conditions.** After call `k`, a node condition holds exactly when, at some call within
the pressure transition period, a threshold whose signal maps to it was active. -/
theorem managerAt_nodeConditions (hts : ts ≠ []) (hmono : Monotone now) (k : ℕ)
    (C : NodeConditionType) :
    C ∈ (managerAt ts gate period now obs (k + 1)).nodeConditions ↔
      ∃ i ≤ k, now k - now i < period ∧ ConditionObservedAt ts gate period now obs i C := by
  have hconditions : C ∈ (managerAt ts gate period now obs (k + 1)).nodeConditions ↔
      ∃ time, (C, time) ∈ (managerAt ts gate period now obs (k + 1)).nodeConditionsLastObservedAt ∧
        now k - time < period := by
    rw [nodeConditions_managerAt_succ gate period now obs hts]
    exact mem_nodeConditionsObservedSince
  rw [hconditions]
  constructor
  · rintro ⟨time, hat, hperiod⟩
    obtain ⟨i, hi, rfl, hobs, -⟩ := lastObservedAt_latest gate period now obs hts hmono (k + 1) hat
    exact ⟨i, Nat.lt_succ_iff.mp hi, hperiod, hobs⟩
  · rintro ⟨i, hi, hperiod, hobs⟩
    obtain ⟨time, hat⟩ :=
      lastObservedAt_of_observed gate period now obs hts (k + 1) ⟨i, Nat.lt_succ_of_le hi, hobs⟩
    obtain ⟨-, -, -, -, hlatest⟩ := lastObservedAt_latest gate period now obs hts hmono (k + 1) hat
    have hle := hlatest i (Nat.lt_succ_of_le hi) hobs
    exact ⟨time, hat, by omega⟩

/-! ### Thresholds met -/

/-- Where the thresholds are distinct, a threshold active at a call is observed at it. -/
theorem mem_observedAt_iff (hts : ts ≠ []) (hdistinct : Distinct ts) (k : ℕ) {T : Threshold} :
    T ∈ observedAt ts gate period now obs k ↔
      T ∈ ts ∧ ActiveAt (obs k) (managerAt ts gate period now obs k).thresholdsMet T :=
  mem_observedThresholds_iff hdistinct (thresholdsMet_subset gate period now obs hts k)

/-- The time kept for a threshold is the start of its stretch of active calls: it has been active
since, and any stretch of active calls up to now starts no earlier. -/
theorem firstObservedAt_streak (hts : ts ≠ []) (hdistinct : Distinct ts) (hmono : Monotone now) :
    ∀ k {T : Threshold} {time : ℤ},
      (T, time) ∈ (managerAt ts gate period now obs k).thresholdsFirstObservedAt →
      ∃ j < k, time = now j ∧ ActiveFrom ts gate period now obs j k T ∧
        ∀ j' < k, ActiveFrom ts gate period now obs j' k T → now j ≤ now j'
  | 0, _, _, h => absurd h List.not_mem_nil
  | k + 1, T, time, h => by
    rw [thresholdsFirstObservedAt_managerAt_succ gate period now obs hts] at h
    obtain ⟨hobserved, rfl⟩ := mem_thresholdsFirstObservedAt.mp h
    obtain ⟨hT, hactive⟩ := (mem_observedAt_iff gate period now obs hts hdistinct k).mp hobserved
    have hextend : ∀ j ≤ k, ActiveFrom ts gate period now obs j k T →
        ActiveFrom ts gate period now obs j (k + 1) T := by
      intro j _ hfrom i hji hik
      rcases Nat.lt_succ_iff_lt_or_eq.mp hik with hlt | rfl
      · exact hfrom i hji hlt
      · exact hactive
    cases hlookup : (managerAt ts gate period now obs k).thresholdsFirstObservedAt.lookup T with
    | none =>
      refine ⟨k, Nat.lt_succ_self k, rfl, hextend k le_rfl fun i hki hik => absurd hik (by omega),
        fun j' hj' hfrom => ?_⟩
      rcases Nat.lt_succ_iff_lt_or_eq.mp hj' with hlt | rfl
      · obtain ⟨k', rfl⟩ : ∃ k', k = k' + 1 := ⟨k - 1, by omega⟩
        have hprev : T ∈ observedAt ts gate period now obs k' :=
          (mem_observedAt_iff gate period now obs hts hdistinct k').mpr ⟨hT, hfrom k' (by omega) (by omega)⟩
        have hkept : (T, (((managerAt ts gate period now obs k').thresholdsFirstObservedAt.lookup T).getD
            (now k'))) ∈ (managerAt ts gate period now obs (k' + 1)).thresholdsFirstObservedAt := by
          rw [thresholdsFirstObservedAt_managerAt_succ gate period now obs hts]
          exact mem_thresholdsFirstObservedAt.mpr ⟨hprev, rfl⟩
        exact absurd hlookup (lookup_ne_none_of_mem hkept)
      · exact le_rfl
    | some time =>
      obtain ⟨j, hj, rfl, hfrom, hearliest⟩ :=
        firstObservedAt_streak hts hdistinct hmono k (mem_of_lookup_eq_some hlookup)
      refine ⟨j, Nat.lt_succ_of_lt hj, rfl, hextend j hj.le hfrom, fun j' hj' hfrom' => ?_⟩
      rcases Nat.lt_succ_iff_lt_or_eq.mp hj' with hlt | rfl
      · exact hearliest j' hlt fun i hji hik => hfrom' i hji (Nat.lt_succ_of_lt hik)
      · exact hmono hj.le

/-- **Thresholds met.** Where no two configured thresholds agree on all that `hasThreshold`
compares, a threshold is met after call `k` exactly when it has been active at every call from
some call `j` on, at least its grace period before. -/
theorem managerAt_thresholdsMet (hts : ts ≠ []) (hdistinct : Distinct ts) (hmono : Monotone now)
    (k : ℕ) {T : Threshold} (hT : T ∈ ts) :
    T ∈ (managerAt ts gate period now obs (k + 1)).thresholdsMet ↔
      ∃ j ≤ k, T.gracePeriod ≤ now k - now j ∧
        ∀ i, j ≤ i → i ≤ k → ActiveAt (obs i) (managerAt ts gate period now obs i).thresholdsMet T := by
  have hmet : T ∈ (managerAt ts gate period now obs (k + 1)).thresholdsMet ↔
      ∃ time, (T, time) ∈ (managerAt ts gate period now obs (k + 1)).thresholdsFirstObservedAt ∧
        T.gracePeriod ≤ now k - time := by
    rw [thresholdsMet_managerAt_succ gate period now obs hts]
    exact mem_thresholdsMetGracePeriod
  rw [hmet]
  constructor
  · rintro ⟨time, hat, hgrace⟩
    obtain ⟨j, hj, rfl, hfrom, -⟩ := firstObservedAt_streak gate period now obs hts hdistinct hmono (k + 1) hat
    exact ⟨j, Nat.lt_succ_iff.mp hj, hgrace, fun i hji hik => hfrom i hji (Nat.lt_succ_of_le hik)⟩
  · rintro ⟨j, hj, hgrace, hactive⟩
    have hobserved : T ∈ observedAt ts gate period now obs k :=
      (mem_observedAt_iff gate period now obs hts hdistinct k).mpr ⟨hT, hactive k hj le_rfl⟩
    have hkept : (T, (((managerAt ts gate period now obs k).thresholdsFirstObservedAt.lookup T).getD
        (now k))) ∈ (managerAt ts gate period now obs (k + 1)).thresholdsFirstObservedAt := by
      rw [thresholdsFirstObservedAt_managerAt_succ gate period now obs hts]
      exact mem_thresholdsFirstObservedAt.mpr ⟨hobserved, rfl⟩
    obtain ⟨j₀, -, hat, -, hearliest⟩ :=
      firstObservedAt_streak gate period now obs hts hdistinct hmono (k + 1) hkept
    have hle := hearliest j (Nat.lt_succ_of_le hj) fun i hji hik => hactive i hji (Nat.lt_succ_iff.mp hik)
    exact ⟨_, hkept, by rw [hat]; omega⟩

end Run

/-! ## `ParseThresholdConfig` -/

/-- The value of a threshold or minimum-reclaim statement, as `parseThresholdStatement` and
`parseMinimumReclaims` read it: a quantity, or a percentage as the fraction `parsePercentage`
gives. -/
inductive StatementValue
  | quantity (quantity : ℤ)
  | percentage (percentage : ℚ)
  deriving DecidableEq, Repr

/-- `evictionapi.OpForSignal`. -/
def opForSignal (_ : Signal) : ThresholdOperator := .opLessThan

/-- `parseThresholdStatement(signal, val)`: `none` for a threshold of 0% or 100%, which is
ignored. -/
def parseThresholdStatement (signal : Signal) : StatementValue → Except String (Option Threshold)
  | .percentage percentage =>
    if percentage = 0 ∨ percentage = 1 then .ok none
    else if percentage < 0 then .error "eviction percentage threshold %v must be >= 0%%: %s"
    else if percentage > 1 then .error "eviction percentage threshold %v must be <= 100%%: %s"
    else .ok (some ⟨signal, opForSignal signal, ⟨none, percentage⟩, 0, none⟩)
  | .quantity quantity =>
    if quantity ≤ 0 then .error "eviction threshold %v must be positive: %s"
    else .ok (some ⟨signal, opForSignal signal, ⟨some quantity, 0⟩, 0, none⟩)

/-- `parseThresholdStatements(statements)`, over the map's entries in the order it is ranged. -/
def parseThresholdStatements (statements : List (Signal × StatementValue)) :
    Except String (List Threshold) :=
  statements.foldlM (fun results statement => do
    let result ← parseThresholdStatement statement.1 statement.2
    pure (match result with
      | some threshold => results ++ [threshold]
      | none => results)) []

/-- `parseGracePeriods(statements)`. -/
def parseGracePeriods (statements : List (Signal × ℤ)) : Except String (List (Signal × ℤ)) :=
  statements.foldlM (fun results statement =>
    if statement.2 < 0 then
      .error "invalid eviction grace period specified: %v, must be a positive value"
    else .ok (results ++ [statement])) []

/-- `parseMinimumReclaims(statements)`. -/
def parseMinimumReclaims (statements : List (Signal × StatementValue)) :
    Except String (List (Signal × ThresholdValue)) :=
  statements.foldlM (fun results statement =>
    match statement.2 with
    | .percentage percentage =>
      if percentage ≤ 0 then .error "eviction percentage minimum reclaim %v must be positive: %s"
      else .ok (results ++ [(statement.1, ⟨none, percentage⟩)])
    | .quantity quantity =>
      if quantity < 0 then .error "negative eviction minimum reclaim specified for %v"
      else .ok (results ++ [(statement.1, ⟨some quantity, 0⟩)])) []

/-- `isHardEvictionThreshold(threshold)`. -/
def isHardEvictionThreshold (threshold : Threshold) : Bool := threshold.gracePeriod = 0

/-- `addAllocatableThresholds(thresholds)`: each hard threshold on available memory is copied to
the memory available for pods, with its minimum reclaim. -/
def addAllocatableThresholds (thresholds : List Threshold) : List Threshold :=
  thresholds ++ (thresholds.filter fun threshold =>
      threshold.signal = .memoryAvailable ∧ isHardEvictionThreshold threshold).map
    fun threshold => ⟨.allocatableMemoryAvailable, threshold.operator, threshold.value, 0,
      threshold.minReclaim⟩

/-- `kubetypes.NodeAllocatableEnforcementKey`. -/
def nodeAllocatableEnforcementKey : String := "pods"

/-- `ParseThresholdConfig(allocatableConfig, evictionHard, evictionSoft, evictionSoftGracePeriod,
evictionMinimumReclaim)`: the hard thresholds, then the soft ones with their grace periods, each
with the minimum reclaim of its signal, and the copies of `addAllocatableThresholds` when node
allocatable is enforced for pods. -/
def ParseThresholdConfig (allocatableConfig : List String)
    (evictionHard evictionSoft : List (Signal × StatementValue))
    (evictionSoftGracePeriod : List (Signal × ℤ))
    (evictionMinimumReclaim : List (Signal × StatementValue)) : Except String (List Threshold) := do
  let hardThresholds ← parseThresholdStatements evictionHard
  let softThresholds ← parseThresholdStatements evictionSoft
  let gracePeriods ← parseGracePeriods evictionSoftGracePeriod
  let minReclaims ← parseMinimumReclaims evictionMinimumReclaim
  let softThresholds ← softThresholds.mapM fun threshold =>
    match gracePeriods.lookup threshold.signal with
    | none => .error "grace period must be specified for the soft eviction threshold %v"
    | some period => .ok { threshold with gracePeriod := period }
  let results := (hardThresholds ++ softThresholds).map fun threshold =>
    match minReclaims.lookup threshold.signal with
    | some minReclaim => { threshold with minReclaim := some minReclaim }
    | none => threshold
  pure (if nodeAllocatableEnforcementKey ∈ allocatableConfig then addAllocatableThresholds results
    else results)

/-- A hard threshold of 100 on `signal`, with a minimum reclaim of `minReclaim`. -/
def hardThreshold (signal : Signal) (minReclaim : ℤ) : Threshold :=
  ⟨signal, .opLessThan, ⟨some 100, 0⟩, 0, some ⟨some minReclaim, 0⟩⟩

/-- 90 of 1000 of the memory available for pods at the first call, 120 after. -/
def allocatableObservations (i : ℕ) (signal : Signal) : Option SignalObservation :=
  if signal = .allocatableMemoryAvailable then some ⟨if i = 0 then 90 else 120, 1000⟩ else none

/-- **An active threshold is dropped.** A kubelet with hard thresholds of 100 on available memory
and on memory available for pods, minimum reclaims of 50 and 60 on them, and node allocatable
enforced for pods: `ParseThresholdConfig` copies the memory threshold to the memory available for
pods with its minimum reclaim of 50, next to the configured one with 60. Both are met at the first
call. At the second, 120 is available, below both `100 + 60` and `100 + 50`, so both are active;
`mergeThresholds` keeps only the first, as the copy agrees with it on all that `hasThreshold`
compares. -/
theorem managerAt_drops_active_threshold :
    ParseThresholdConfig [nodeAllocatableEnforcementKey]
        [(.memoryAvailable, .quantity 100), (.allocatableMemoryAvailable, .quantity 100)] [] []
        [(.memoryAvailable, .quantity 50), (.allocatableMemoryAvailable, .quantity 60)] =
      .ok [hardThreshold .memoryAvailable 50, hardThreshold .allocatableMemoryAvailable 60,
        hardThreshold .allocatableMemoryAvailable 50] ∧
    (managerAt [hardThreshold .memoryAvailable 50, hardThreshold .allocatableMemoryAvailable 60,
        hardThreshold .allocatableMemoryAvailable 50] false 300 (fun i => 10 * i)
        allocatableObservations 1).thresholdsMet =
      [hardThreshold .allocatableMemoryAvailable 60, hardThreshold .allocatableMemoryAvailable 50] ∧
    (managerAt [hardThreshold .memoryAvailable 50, hardThreshold .allocatableMemoryAvailable 60,
        hardThreshold .allocatableMemoryAvailable 50] false 300 (fun i => 10 * i)
        allocatableObservations 2).thresholdsMet = [hardThreshold .allocatableMemoryAvailable 60] := by
  decide

end Kubernetes.Eviction
