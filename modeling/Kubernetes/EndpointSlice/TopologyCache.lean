import Mathlib
import Kubernetes.Foundations.GoStd
import Kubernetes.Foundations.Best
import Kubernetes.Proxy.EndpointSliceCache

/-!
# Topology hints of the EndpointSlice controller

`pkg/controller/endpointslice/topologycache`. For a Service that asks for topology aware hints,
the EndpointSlice controller hands the slices it is about to create, to update and to leave as
they are (`SliceInfo`) to `TopologyCache.AddHints`. It hints every endpoint to one zone, in
proportion to the allocatable CPU of each zone, and records how many endpoints each zone got
(`SetHints`).

* `getAllocations` gives each zone a minimum, a maximum and a desired number of endpoints, or
  `none` where the overload threshold cannot be kept.
* `SliceInfo.getAllocatedHintsByZone` keeps the unchanged slices whose hints `getHintsByZone`
  accepts and moves the others to the end of the slices to update.
* step 1 of `addHints` hints every endpoint of the slices to create and to update to its own
  zone; `getGivingAndReceivingZones` and `redistributeHints` then move hints from the zones with
  too many to the zones with too few.

`getHintsByZone` returns `nil` when the first hint of an endpoint names a zone that *has* an
allocation, and it never counts a hint. So an unchanged slice stays as it is exactly when each of
its endpoints is hinted to a zone without an allocation, and those hints are counted for no zone
(`getHintsByZone_eq`, `getAllocatedHintsByZone_spec`). What holds is that every endpoint of the
slices created and updated carries one hint (`addHints_hints_singleton`) and that the counts
stored are the hints of those slices (`addHints_stored_counts`); the kept slices are the
unchanged ones hinted away from every allocated zone (`addHints_unchanged`).

The `float64` ratios are taken exactly: a zone's `ratio * numEndpoints` is kept as the numerator
`cpu * numEndpoints` over the cluster's allocatable CPU, so that each comparison of the code is
one between integers. Go maps are `AList`s ranged over in the order of their entries, one of the
orders Go may take. A deep copy of a slice is the slice itself.
-/

namespace Kubernetes.TopologyHints

open Proxy (AddressType)

/-- `discovery.Endpoint`, what the topology cache reads and writes of it: its zone (`none` for a
`nil` one) and the zone names of its hints' `forZones` (`none` for `nil` hints). -/
structure Endpoint where
  zone : Option String
  hints : Option (List String)
  deriving DecidableEq

/-- `discovery.EndpointSlice`: its endpoints. -/
structure EndpointSlice where
  endpoints : List Endpoint
  deriving DecidableEq

/-- `SliceInfo`: the slices of one Service and address type that the controller is about to
create, to update, and to leave as they are. -/
structure SliceInfo where
  serviceKey : String
  addressType : AddressType
  toCreate : List EndpointSlice
  toUpdate : List EndpointSlice
  unchanged : List EndpointSlice

/-- `Allocation`, with `desired` times the cluster's allocatable CPU. -/
structure Allocation where
  minimum : ℤ
  maximum : ℤ
  desired : ℤ
  deriving DecidableEq

/-- `EndpointZoneInfo`: a number of endpoints for each zone. -/
abbrev EndpointZoneInfo := AList fun _ : String => ℤ

/-- The allocations of `getAllocations`, by zone. -/
abbrev Allocations := AList fun _ : String => Allocation

/-- `TopologyCache`, what `AddHints` reads and writes of it. `cpuByZone` is the allocatable CPU
of each zone in millicores, `none` where `SetNodes` found the nodes insufficient and set
`cpuRatiosByZone` to `nil`; the ratio of a zone is its CPU over the total. The hints of
`endpointsByService` are keyed by Service and address type together. -/
structure TopologyCache where
  cpuByZone : Option (AList fun _ : String => ℤ)
  endpointsByService : AList fun _ : String × AddressType => EndpointZoneInfo

/-! ## Slices -/

/-- The number of endpoints of a list of slices. -/
def numEndpoints (slices : List EndpointSlice) : ℕ :=
  (slices.map fun slice => slice.endpoints.length).sum

/-- `SliceInfo.getTotalEndpoints`. -/
def SliceInfo.getTotalEndpoints (si : SliceInfo) : ℕ :=
  numEndpoints si.toCreate + numEndpoints si.toUpdate + numEndpoints si.unchanged

/-- A slice with the hints of all its endpoints removed. -/
def clearHints (slice : EndpointSlice) : EndpointSlice :=
  ⟨slice.endpoints.map fun endpoint => { endpoint with hints := none }⟩

/-- `RemoveHintsFromSlices`: the hints of the slices to create and to update are removed, and an
unchanged slice with a hint loses its hints and moves to the end of the slices to update. -/
def removeHintsFromSlices (si : SliceInfo) : SliceInfo :=
  let (toUpdate, unchanged) := si.unchanged.foldl (fun (toUpdate, unchanged) slice =>
    if slice.endpoints.any fun endpoint => endpoint.hints.isSome then
      (toUpdate ++ [clearHints slice], unchanged)
    else (toUpdate, unchanged ++ [slice])) (si.toUpdate.map clearHints, [])
  { si with toCreate := si.toCreate.map clearHints, toUpdate, unchanged }

/-! ## The cache -/

/-- The cluster's allocatable CPU, over which `cpuRatiosByZone` divides each zone's. -/
def TopologyCache.totalCPU (t : TopologyCache) : ℤ :=
  match t.cpuByZone with
  | none => 0
  | some cpuByZone => (cpuByZone.entries.map Sigma.snd).sum

/-- `RemoveHints`. -/
def TopologyCache.removeHints (t : TopologyCache) (serviceKey : String) (addrType : AddressType) :
    TopologyCache :=
  { t with endpointsByService := t.endpointsByService.erase (serviceKey, addrType) }

/-- `SetHints`: an empty count removes the Service's hints. -/
def TopologyCache.setHints (t : TopologyCache) (serviceKey : String) (addrType : AddressType)
    (allocatedHintsByZone : EndpointZoneInfo) : TopologyCache :=
  if allocatedHintsByZone.entries.isEmpty then t.removeHints serviceKey addrType
  else { t with endpointsByService :=
    t.endpointsByService.insert (serviceKey, addrType) allocatedHintsByZone }

/-- One zone of `getAllocations`' first loop, on the endpoints left over the minimums, the sum of
the minimums and the allocations so far. `desired` is `ratio * numEndpoints`, as a numerator
over `total`, and `minimum` the ceiling of `desired / (1 + OverloadThreshold)`, that is of
`desired * 5 / 6`; the loop returns `nil` once the minimums pass the endpoints. -/
def allocateZone (total numEndpoints : ℤ) (acc : ℤ × ℤ × Allocations)
    (zone : Σ _ : String, ℤ) : Option (ℤ × ℤ × Allocations) :=
  let (remainingMinEndpoints, minTotal, allocations) := acc
  let desired := zone.2 * numEndpoints
  let minimum := -(-(5 * desired) / (6 * total))
  if remainingMinEndpoints - minimum < 0 then none
  else some (remainingMinEndpoints - minimum, minTotal + minimum,
    allocations.insert zone.1 ⟨minimum, 0, max desired (minimum * total)⟩)

/-- `getAllocations`: `nil` without ratios, with fewer than two zones or more zones than
endpoints, or where the minimums pass the endpoints; otherwise every zone may take up to the
endpoints the others' minimums leave. -/
def TopologyCache.getAllocations (t : TopologyCache) (numEndpoints : ℤ) : Option Allocations :=
  match t.cpuByZone with
  | none => none
  | some cpuByZone =>
    if cpuByZone.entries.length < 2 ∨ numEndpoints < cpuByZone.entries.length then none
    else
      match cpuByZone.entries.foldlM (allocateZone t.totalCPU numEndpoints)
          (numEndpoints, 0, ∅) with
      | none => none
      | some (_, minTotal, allocations) =>
        some (allocations.entries.foldl (fun m a =>
          m.insert a.1 { a.2 with maximum := a.2.minimum + numEndpoints - minTotal }) allocations)

/-! ## Unchanged slices -/

/-- The test of `getHintsByZone`'s first loop: the endpoint has no hint, or its first hint names
a zone that has an allocation. -/
def Endpoint.hintRejected (allocations : Allocations) (endpoint : Endpoint) : Bool :=
  match endpoint.hints with
  | none | some [] => true
  | some (zone :: _) => (allocations.lookup zone).isSome

/-- `getHintsByZone`: `nil` when an endpoint has no hint, or when its first hint names a zone that
has an allocation. The count of hints by zone it returns otherwise is never filled, so the check
of those counts against the maximums ranges over no zone. -/
def getHintsByZone (slice : EndpointSlice) (allocatedHintsByZone : EndpointZoneInfo)
    (allocations : Allocations) : Option EndpointZoneInfo :=
  let hintsByZone : EndpointZoneInfo := ∅
  if slice.endpoints.any (Endpoint.hintRejected allocations) then none
  else if hintsByZone.entries.any fun numHints => match allocations.lookup numHints.1 with
      | none => true
      | some allocation =>
        allocation.maximum < numHints.2 + (allocatedHintsByZone.lookup numHints.1).getD 0 then
    none
  else some hintsByZone

/-- One unchanged slice of `getAllocatedHintsByZone`'s loop, on the slices to update, the slices
kept unchanged and the counts so far. -/
def allocateUnchanged (allocations : Allocations)
    (acc : List EndpointSlice × List EndpointSlice × EndpointZoneInfo) (slice : EndpointSlice) :
    List EndpointSlice × List EndpointSlice × EndpointZoneInfo :=
  match getHintsByZone slice acc.2.2 allocations with
  | none => (acc.1 ++ [slice], acc.2.1, acc.2.2)
  | some hintsByZone => (acc.1, acc.2.1 ++ [slice],
      hintsByZone.entries.foldl (fun m numHints => Go.addTo m numHints.1 numHints.2) acc.2.2)

/-- `SliceInfo.getAllocatedHintsByZone`: an unchanged slice that `getHintsByZone` rejects moves
to the end of the slices to update, the others stay, and their counts are summed. -/
def SliceInfo.getAllocatedHintsByZone (si : SliceInfo) (allocations : Allocations) :
    SliceInfo × EndpointZoneInfo :=
  let (toUpdate, unchanged, allocatedHintsByZone) :=
    si.unchanged.foldl (allocateUnchanged allocations) (si.toUpdate, [], ∅)
  ({ si with toUpdate, unchanged }, allocatedHintsByZone)

/-- The first hint of the endpoint names a zone without an allocation. -/
def Endpoint.hintedUnallocated (allocations : Allocations) (endpoint : Endpoint) : Bool :=
  match endpoint.hints with
  | some (zone :: _) => (allocations.lookup zone).isNone
  | _ => false

/-- The slices that `getHintsByZone` accepts: every endpoint is hinted to a zone without an
allocation. -/
def hintsAccepted (allocations : Allocations) (slice : EndpointSlice) : Bool :=
  slice.endpoints.all (Endpoint.hintedUnallocated allocations)

theorem Endpoint.hintRejected_eq (allocations : Allocations) (endpoint : Endpoint) :
    endpoint.hintRejected allocations = !endpoint.hintedUnallocated allocations := by
  unfold Endpoint.hintRejected Endpoint.hintedUnallocated
  rcases endpoint.hints with _ | _ | ⟨zone, rest⟩ <;> simp

/-- `getHintsByZone` accepts exactly the slices hinted away from every allocated zone, and counts
no hint of them. -/
theorem getHintsByZone_eq (slice : EndpointSlice) (allocatedHintsByZone : EndpointZoneInfo)
    (allocations : Allocations) :
    getHintsByZone slice allocatedHintsByZone allocations =
      if hintsAccepted allocations slice then some ∅ else none := by
  simp only [getHintsByZone, Endpoint.hintRejected_eq, hintsAccepted, List.any_eq_not_all_not, Bool.not_not]
  by_cases hall : slice.endpoints.all (Endpoint.hintedUnallocated allocations) <;> simp [hall]

theorem foldl_allocateUnchanged (allocations : Allocations) (slices toUpdate unchanged : List EndpointSlice) :
    slices.foldl (allocateUnchanged allocations) (toUpdate, unchanged, ∅) =
      (toUpdate ++ slices.filter (fun slice => !hintsAccepted allocations slice),
        unchanged ++ slices.filter (hintsAccepted allocations), ∅) := by
  induction slices generalizing toUpdate unchanged with
  | nil => simp
  | cons slice slices ih =>
    rw [List.foldl_cons]
    by_cases h : hintsAccepted allocations slice <;>
      simp [allocateUnchanged, getHintsByZone_eq, h, ih]

/-- `getAllocatedHintsByZone` moves the unchanged slices hinted to an allocated zone (or not
hinted) to the slices to update, keeps the others, and counts nothing. -/
theorem getAllocatedHintsByZone_eq (si : SliceInfo) (allocations : Allocations) :
    si.getAllocatedHintsByZone allocations =
      ({ si with
          toUpdate := si.toUpdate ++ si.unchanged.filter fun slice => !hintsAccepted allocations slice
          unchanged := si.unchanged.filter (hintsAccepted allocations) }, ∅) := by
  simp [SliceInfo.getAllocatedHintsByZone, foldl_allocateUnchanged]

/-! ## Giving and receiving zones -/

/-- `getMost`: the zone with the greatest value above `0`, the first of them in the map's order,
or `""` and `0` where no value is above `0`. -/
def getMost (zones : EndpointZoneInfo) : String × ℤ :=
  zones.entries.foldl (fun most z => if most.2 < z.2 then (z.1, z.2) else most) ("", 0)

/-- Step 1 of `getGivingAndReceivingZones` for one zone: how many hints it has over its desired
number (giving) or under it (receiving), as numerators over `total`. -/
def desiredDifference (total : ℤ) (allocatedHintsByZone : EndpointZoneInfo)
    (acc : EndpointZoneInfo × EndpointZoneInfo) (zone : Σ _ : String, Allocation) :
    EndpointZoneInfo × EndpointZoneInfo :=
  let allocatedHints := (allocatedHintsByZone.lookup zone.1).getD 0 * total
  let target := zone.2.desired
  if target < allocatedHints then (acc.1.insert zone.1 (allocatedHints - target), acc.2)
  else if allocatedHints < target then (acc.1, acc.2.insert zone.1 (target - allocatedHints))
  else acc

/-- Step 2 of `getGivingAndReceivingZones`, its loop run at most `fuel` times: while the zones
that give most and receive most have at least half an endpoint (and one of them a whole one),
one endpoint moves from the first to the second. -/
def convertDesired (total : ℤ) :
    ℕ → EndpointZoneInfo × EndpointZoneInfo → EndpointZoneInfo × EndpointZoneInfo →
      EndpointZoneInfo × EndpointZoneInfo
  | 0, _, zones => zones
  | fuel + 1, (givingZonesDesired, receivingZonesDesired), (givingZones, receivingZones) =>
    let (givingZone, numToGive) := getMost givingZonesDesired
    let (receivingZone, numToReceive) := getMost receivingZonesDesired
    if givingZone = "" ∨ receivingZone = "" ∨ (numToGive < total ∧ numToReceive < total) ∨
        2 * numToGive < total ∨ 2 * numToReceive < total then (givingZones, receivingZones)
    else convertDesired total fuel
      (Go.addTo givingZonesDesired givingZone (-total),
        Go.addTo receivingZonesDesired receivingZone (-total))
      (Go.addTo givingZones givingZone 1, Go.addTo receivingZones receivingZone 1)

/-- The sum of the positive values of a map. Each turn of `convertDesired`'s loop lowers it by
at least half of `total`, which bounds the turns. -/
def positivePart (zones : EndpointZoneInfo) : ℤ :=
  (zones.entries.map fun z => max 0 z.2).sum

/-- `getGivingAndReceivingZones`. -/
def getGivingAndReceivingZones (total : ℤ) (allocations : Allocations)
    (allocatedHintsByZone : EndpointZoneInfo) : EndpointZoneInfo × EndpointZoneInfo :=
  let desired := allocations.entries.foldl (desiredDifference total allocatedHintsByZone) (∅, ∅)
  convertDesired total ((2 * positivePart desired.1 / total).toNat + 1) desired (∅, ∅)

/-- `getMost` keeps the zone with the lowest negated value, starting from `""` and `0`. -/
theorem getMost_eq_foldl_keepLower (zones : EndpointZoneInfo) :
    getMost zones = (zones.entries.map fun z => (z.1, z.2)).foldl
      (Best.keepLower fun most : String × ℤ => -most.2) ("", 0) := by
  rw [getMost, List.foldl_map]
  congr 1
  funext most z
  simp only [Best.keepLower, neg_lt_neg_iff]

/-- What `getMost` returns is `""` and `0`, or an entry of the map. -/
theorem getMost_mem (zones : EndpointZoneInfo) :
    getMost zones = ("", 0) ∨ zones.lookup (getMost zones).1 = some (getMost zones).2 := by
  have hmem := Best.foldl_keepLower_mem (fun most : String × ℤ => -most.2) ("", 0)
    (zones.entries.map fun z => (z.1, z.2))
  rw [← getMost_eq_foldl_keepLower] at hmem
  rcases List.mem_cons.mp hmem with h | h
  · exact .inl h
  · obtain ⟨z, hz, hzeq⟩ := List.mem_map.mp h
    rw [← hzeq]
    exact .inr (AList.mem_lookup_iff.mpr hz)

theorem positivePart_nonneg (zones : EndpointZoneInfo) : 0 ≤ positivePart zones :=
  List.sum_nonneg fun _ hz => by
    obtain ⟨z, -, rfl⟩ := List.mem_map.mp hz
    exact le_max_left _ _

/-- A turn of `convertDesired`'s loop that does not break takes `total` from a zone that has at
least half of it, which lowers the positive part of the giving zones by half of `total`. -/
theorem positivePart_addTo_getMost {givingZonesDesired : EndpointZoneInfo} {total : ℤ}
    (htotal : 0 < total) (hzone : (getMost givingZonesDesired).1 ≠ "")
    (hhalf : ¬2 * (getMost givingZonesDesired).2 < total) :
    2 * positivePart (Go.addTo givingZonesDesired (getMost givingZonesDesired).1 (-total)) + total ≤
      2 * positivePart givingZonesDesired := by
  have hlookup : givingZonesDesired.lookup (getMost givingZonesDesired).1 =
      some (getMost givingZonesDesired).2 := by
    rcases getMost_mem givingZonesDesired with h | h
    · exact absurd (by rw [h]) hzone
    · exact h
  have hsum := Go.sum_entries_insert hlookup (fun v => max 0 v)
    ((getMost givingZonesDesired).2 + -total)
  have hrest := positivePart_nonneg (givingZonesDesired.insert (getMost givingZonesDesired).1 0)
  rw [positivePart, Go.sum_entries_insert hlookup (fun v => max 0 v) 0] at hrest
  simp only [positivePart, Go.addTo, hlookup, Option.getD_some] at hsum hrest ⊢
  omega

/-- A numerator lowered by at least the divisor lowers the quotient by one. -/
theorem toNat_ediv_lt_of_add_le {a b c : ℤ} {n : ℕ} (hc : 0 < c) (hb : 0 ≤ b) (h : b + c ≤ a)
    (ha : (a / c).toNat < n + 1) : (b / c).toNat < n := by
  have hdiv : b / c ≤ a / c - 1 := by
    have := Int.ediv_le_ediv hc (show b ≤ a + -1 * c by omega)
    rwa [Int.add_mul_ediv_right _ _ hc.ne'] at this
  have hnonneg := Int.ediv_nonneg hb hc.le
  omega

/-- Past the bound of `getGivingAndReceivingZones`, one more turn of fuel changes nothing: the
loop has broken before. -/
theorem convertDesired_succ {total : ℤ} (htotal : 0 < total) {n : ℕ}
    (desired zones : EndpointZoneInfo × EndpointZoneInfo)
    (hn : (2 * positivePart desired.1 / total).toNat < n) :
    convertDesired total (n + 1) desired zones = convertDesired total n desired zones := by
  induction n generalizing desired zones with
  | zero => omega
  | succ n ih =>
    obtain ⟨givingZonesDesired, receivingZonesDesired⟩ := desired
    obtain ⟨givingZones, receivingZones⟩ := zones
    rcases hg : getMost givingZonesDesired with ⟨givingZone, numToGive⟩
    rcases hr : getMost receivingZonesDesired with ⟨receivingZone, numToReceive⟩
    conv_lhs => rw [convertDesired]
    conv_rhs => rw [convertDesired]
    simp only [hg, hr]
    split_ifs with hbreak
    · rfl
    · -- the turn moves one endpoint: the bound drops by one
      simp only [not_or] at hbreak
      have hstep := positivePart_addTo_getMost htotal (by rw [hg]; exact hbreak.1)
        (by rw [hg]; exact hbreak.2.2.2.1)
      rw [hg] at hstep
      dsimp only at hstep hn
      have hpos := positivePart_nonneg (Go.addTo givingZonesDesired givingZone (-total))
      apply ih
      dsimp only
      exact toNat_ediv_lt_of_add_le htotal (by omega) (by omega) hn

/-- The fuel `getGivingAndReceivingZones` gives its loop is enough: more fuel gives the same
zones, so the model's are those of the unbounded loop of the source. -/
theorem convertDesired_add_fuel {total : ℤ} (htotal : 0 < total)
    (desired zones : EndpointZoneInfo × EndpointZoneInfo) (k : ℕ) :
    convertDesired total ((2 * positivePart desired.1 / total).toNat + 1 + k) desired zones =
      convertDesired total ((2 * positivePart desired.1 / total).toNat + 1) desired zones := by
  induction k with
  | zero => rfl
  | succ k ih =>
    rw [← Nat.add_assoc, convertDesired_succ htotal desired zones (by omega), ih]

/-! ## Redistribution -/

/-- The state of `redistributeHints`' loop. -/
structure Redistribution where
  givingZones : EndpointZoneInfo
  receivingZones : EndpointZoneInfo
  redistributions : EndpointZoneInfo

/-- `delete(zones, zone)` where `num` is `1`, `zones[zone]--` otherwise. -/
def takeOne (zones : EndpointZoneInfo) (zone : String) (num : ℤ) : EndpointZoneInfo :=
  if num = 1 then zones.erase zone else zones.replace zone (num - 1)

/-- One endpoint of `redistributeHints`: an endpoint of a zone with endpoints to give is hinted to
the first zone with endpoints to receive. Once no zone is left to give or to receive the loop has
returned, and the endpoints after it pass unchanged. -/
def redistributeEndpoint (r : Redistribution) (endpoint : Endpoint) : Redistribution × Endpoint :=
  if r.givingZones.entries.isEmpty ∨ r.receivingZones.entries.isEmpty then (r, endpoint) else
  match endpoint.zone with
  | none => (r, endpoint)
  | some givingZone =>
    if givingZone = "" then (r, endpoint) else
    match r.givingZones.lookup givingZone, r.receivingZones.entries.find? (fun z => 0 < z.2) with
    | some numToGive, some receivingZone =>
      if 0 < numToGive then
        (⟨takeOne r.givingZones givingZone numToGive,
            takeOne r.receivingZones receivingZone.1 receivingZone.2,
            Go.addTo (Go.addTo r.redistributions receivingZone.1 1) givingZone (-1)⟩,
          { endpoint with hints := some [receivingZone.1] })
      else (r, endpoint)
    | _, _ => (r, endpoint)

/-- One slice of `redistributeHints`' loop: its endpoints in turn. -/
def redistributeSlice (r : Redistribution) (slice : EndpointSlice) :
    Redistribution × EndpointSlice :=
  let (r, endpoints) := Go.rangeUpdate redistributeEndpoint r slice.endpoints
  (r, ⟨endpoints⟩)

/-- `redistributeHints`: the slices with their endpoints rehinted, and the change of the number
of hints of each zone. -/
def redistributeHints (slices : List EndpointSlice) (givingZones receivingZones : EndpointZoneInfo) :
    List EndpointSlice × EndpointZoneInfo :=
  let (r, slices) := Go.rangeUpdate redistributeSlice ⟨givingZones, receivingZones, ∅⟩ slices
  (slices, r.redistributions)

@[simp] theorem redistributeSlice_fst (r : Redistribution) (slice : EndpointSlice) :
    (redistributeSlice r slice).1 = (Go.rangeUpdate redistributeEndpoint r slice.endpoints).1 := rfl

@[simp] theorem redistributeSlice_snd_endpoints (r : Redistribution) (slice : EndpointSlice) :
    (redistributeSlice r slice).2.endpoints =
      (Go.rangeUpdate redistributeEndpoint r slice.endpoints).2 := rfl

theorem redistributeHints_eq (slices : List EndpointSlice) (givingZones receivingZones : EndpointZoneInfo) :
    redistributeHints slices givingZones receivingZones =
      ((Go.rangeUpdate redistributeSlice ⟨givingZones, receivingZones, ∅⟩ slices).2,
        (Go.rangeUpdate redistributeSlice ⟨givingZones, receivingZones, ∅⟩ slices).1.redistributions) :=
  rfl

/-- An endpoint passes `redistributeHints` unchanged, or it is hinted to a receiving zone and the
changes move one hint from its own zone to that one. -/
theorem redistributeEndpoint_cases (r : Redistribution) (endpoint : Endpoint) :
    redistributeEndpoint r endpoint = (r, endpoint) ∨
      ∃ givingZone receivingZone, endpoint.zone = some givingZone ∧
        (redistributeEndpoint r endpoint).1.redistributions =
          Go.addTo (Go.addTo r.redistributions receivingZone 1) givingZone (-1) ∧
        (redistributeEndpoint r endpoint).2 = { endpoint with hints := some [receivingZone] } := by
  unfold redistributeEndpoint
  split_ifs
  · exact .inl rfl
  split
  · exact .inl rfl
  rename_i givingZone hzone
  split_ifs
  · exact .inl rfl
  split
  · split_ifs
    · exact .inr ⟨givingZone, _, hzone, rfl, rfl⟩
    · exact .inl rfl
  · exact .inl rfl

/-- `1` where the endpoint is hinted to exactly this zone, `0` otherwise. -/
def Endpoint.hintedTo (zone : String) (endpoint : Endpoint) : ℤ :=
  if endpoint.hints = some [zone] then 1 else 0

/-- The number of endpoints of the slices hinted to exactly this zone. -/
def hintCount (zone : String) (slices : List EndpointSlice) : ℤ :=
  (slices.map fun slice => (slice.endpoints.map (Endpoint.hintedTo zone)).sum).sum

/-- An endpoint hinted to one zone is still hinted to one zone. -/
theorem redistributeEndpoint_single (r : Redistribution) {endpoint : Endpoint}
    (h : ∃ zone, endpoint.hints = some [zone]) :
    ∃ zone, (redistributeEndpoint r endpoint).2.hints = some [zone] := by
  rcases redistributeEndpoint_cases r endpoint with heq | ⟨-, receivingZone, -, -, heq⟩
  · rw [heq]
    exact h
  · rw [heq]
    exact ⟨receivingZone, rfl⟩

/-- On an endpoint hinted to its own zone, the change `redistributeHints` records for a zone is
the change of the endpoint's hint for it. -/
theorem redistributeEndpoint_hintedTo (zone : String) (r : Redistribution) {endpoint : Endpoint}
    (h : endpoint.hints = some [endpoint.zone.getD ""]) :
    ((redistributeEndpoint r endpoint).1.redistributions.lookup zone).getD 0 +
        endpoint.hintedTo zone =
      (r.redistributions.lookup zone).getD 0 + (redistributeEndpoint r endpoint).2.hintedTo zone := by
  rcases redistributeEndpoint_cases r endpoint with heq | ⟨givingZone, receivingZone, hzone, hred, heq⟩
  · rw [heq]
  · rw [hred, heq, Go.getD_lookup_addTo, Go.getD_lookup_addTo]
    rw [hzone, Option.getD_some] at h
    simp only [Endpoint.hintedTo, h, Option.some.injEq, List.cons.injEq, and_true]
    grind

/-- Every endpoint of the slices `redistributeHints` returns is hinted to one zone, where it was
before. -/
theorem redistributeHints_single {slices : List EndpointSlice}
    (h : ∀ slice ∈ slices, ∀ endpoint ∈ slice.endpoints, ∃ zone, endpoint.hints = some [zone])
    (givingZones receivingZones : EndpointZoneInfo) :
    ∀ slice ∈ (redistributeHints slices givingZones receivingZones).1,
      ∀ endpoint ∈ slice.endpoints, ∃ zone, endpoint.hints = some [zone] := by
  rw [redistributeHints_eq]
  refine Go.forall_mem_rangeUpdate (fun r slice hslice => ?_) _ h
  rw [redistributeSlice_snd_endpoints]
  exact Go.forall_mem_rangeUpdate (fun r _ => redistributeEndpoint_single r) r hslice

/-- On slices hinted to their own zones, the changes `redistributeHints` returns are the changes
of the number of hints of each zone. -/
theorem redistributeHints_hintCount (zone : String) {slices : List EndpointSlice}
    (h : ∀ slice ∈ slices, ∀ endpoint ∈ slice.endpoints,
      endpoint.hints = some [endpoint.zone.getD ""])
    (givingZones receivingZones : EndpointZoneInfo) :
    ((redistributeHints slices givingZones receivingZones).2.lookup zone).getD 0 +
        hintCount zone slices =
      hintCount zone (redistributeHints slices givingZones receivingZones).1 := by
  -- the recorded change of the zone moves against its hints, endpoint by endpoint
  have hslice : ∀ (r : Redistribution) (slice : EndpointSlice),
      (∀ endpoint ∈ slice.endpoints, endpoint.hints = some [endpoint.zone.getD ""]) →
      ((redistributeSlice r slice).1.redistributions.lookup zone).getD 0 +
          (slice.endpoints.map (Endpoint.hintedTo zone)).sum =
        (r.redistributions.lookup zone).getD 0 +
          ((redistributeSlice r slice).2.endpoints.map (Endpoint.hintedTo zone)).sum := by
    intro r slice hendpoints
    rw [redistributeSlice_fst, redistributeSlice_snd_endpoints]
    exact Go.rangeUpdate_sum (fun r => (r.redistributions.lookup zone).getD 0)
      (Endpoint.hintedTo zone) (fun r _ he => redistributeEndpoint_hintedTo zone r he) r hendpoints
  have hslices := Go.rangeUpdate_sum (fun r : Redistribution => (r.redistributions.lookup zone).getD 0)
    (fun slice : EndpointSlice => (slice.endpoints.map (Endpoint.hintedTo zone)).sum) hslice
    ⟨givingZones, receivingZones, ∅⟩ h
  rw [redistributeHints_eq]
  simpa [hintCount] using hslices

/-! ## `AddHints` -/

/-- An endpoint whose zone is `nil` or `""`. -/
def Endpoint.zoneless (endpoint : Endpoint) : Bool := endpoint.zone.getD "" = ""

/-- Step 1 of `AddHints`: the endpoint is hinted to its own zone. -/
def Endpoint.hintOwnZone (endpoint : Endpoint) : Endpoint :=
  { endpoint with hints := some [endpoint.zone.getD ""] }

/-- Step 1 of `AddHints` on the slices. -/
def hintOwnZones (slices : List EndpointSlice) : List EndpointSlice :=
  slices.map fun slice => ⟨slice.endpoints.map Endpoint.hintOwnZone⟩

/-- The counts of step 1: one more hint for the zone of each endpoint. -/
def countOwnZones (slices : List EndpointSlice) (allocatedHintsByZone : EndpointZoneInfo) :
    EndpointZoneInfo :=
  slices.foldl (fun m slice => slice.endpoints.foldl
    (fun m endpoint => Go.addTo m (endpoint.zone.getD "") 1) m) allocatedHintsByZone

/-- `TopologyCache.AddHints`: the cache with the Service's counts stored, and the slices with
their hints. Where there are no allocations, or an endpoint of a slice to create or to update has
no zone, every hint is removed. -/
def TopologyCache.addHints (t : TopologyCache) (si : SliceInfo) : TopologyCache × SliceInfo :=
  match t.getAllocations si.getTotalEndpoints with
  | none => (t.removeHints si.serviceKey si.addressType, removeHintsFromSlices si)
  | some allocations =>
    let (si, allocatedHintsByZone) := si.getAllocatedHintsByZone allocations
    let allocatableSlices := si.toCreate ++ si.toUpdate
    if allocatableSlices.any fun slice => slice.endpoints.any Endpoint.zoneless then
      (t.removeHints si.serviceKey si.addressType, removeHintsFromSlices si)
    else
      let allocatedHintsByZone := countOwnZones allocatableSlices allocatedHintsByZone
      let allocatableSlices := hintOwnZones allocatableSlices
      let (givingZones, receivingZones) :=
        getGivingAndReceivingZones t.totalCPU allocations allocatedHintsByZone
      let (allocatableSlices, redistributions) :=
        redistributeHints allocatableSlices givingZones receivingZones
      let allocatedHintsByZone := redistributions.entries.foldl
        (fun m diff => Go.addTo m diff.1 diff.2) allocatedHintsByZone
      (t.setHints si.serviceKey si.addressType allocatedHintsByZone,
        { si with toCreate := allocatableSlices.take si.toCreate.length,
                  toUpdate := allocatableSlices.drop si.toCreate.length })

theorem hintOwnZones_hints {slices : List EndpointSlice} :
    ∀ slice ∈ hintOwnZones slices, ∀ endpoint ∈ slice.endpoints,
      endpoint.hints = some [endpoint.zone.getD ""] := by
  simp [hintOwnZones, Endpoint.hintOwnZone]

/-- The counts of step 1 are the hints step 1 writes. -/
theorem getD_lookup_countOwnZones (zone : String) (slices : List EndpointSlice)
    (allocatedHintsByZone : EndpointZoneInfo) :
    ((countOwnZones slices allocatedHintsByZone).lookup zone).getD 0 =
      (allocatedHintsByZone.lookup zone).getD 0 + hintCount zone (hintOwnZones slices) := by
  have hendpoints : ∀ (endpoints : List Endpoint) (m : EndpointZoneInfo),
      ((endpoints.foldl (fun m endpoint => Go.addTo m (endpoint.zone.getD "") 1) m).lookup
          zone).getD 0 =
        (m.lookup zone).getD 0 +
          (endpoints.map fun endpoint => endpoint.hintOwnZone.hintedTo zone).sum := by
    intro endpoints
    induction endpoints with
    | nil => simp
    | cons endpoint endpoints ih =>
      intro m
      rw [List.foldl_cons, ih, Go.getD_lookup_addTo]
      simp only [Endpoint.hintedTo, Endpoint.hintOwnZone, Option.some.injEq, List.cons.injEq,
        and_true, List.map_cons, List.sum_cons]
      grind
  induction slices generalizing allocatedHintsByZone with
  | nil => simp [countOwnZones, hintOwnZones, hintCount]
  | cons slice slices ih =>
    simp only [countOwnZones, List.foldl_cons] at ih ⊢
    rw [ih, hendpoints]
    simp only [hintCount, hintOwnZones, List.map_cons, List.sum_cons, List.map_map,
      Function.comp_def]
    ring

/-- The number of hints the cache holds for a zone of a Service, `0` where it holds none. -/
def TopologyCache.storedHints (t : TopologyCache) (serviceKey : String) (addrType : AddressType)
    (zone : String) : ℤ :=
  ((t.endpointsByService.lookup (serviceKey, addrType)).bind fun info => info.lookup zone).getD 0

/-- What `SetHints` stores is read back zone by zone, an empty count as no hints. -/
theorem storedHints_setHints (t : TopologyCache) (serviceKey : String) (addrType : AddressType)
    (allocatedHintsByZone : EndpointZoneInfo) (zone : String) :
    (t.setHints serviceKey addrType allocatedHintsByZone).storedHints serviceKey addrType zone =
      (allocatedHintsByZone.lookup zone).getD 0 := by
  unfold TopologyCache.setHints TopologyCache.storedHints
  split_ifs with hempty
  · have hnone : allocatedHintsByZone.lookup zone = none := by
      rw [List.isEmpty_iff] at hempty
      rw [AList.lookup, hempty, List.dlookup_nil]
    simp [TopologyCache.removeHints, hnone]
  · simp

/-- Where there are allocations and every endpoint has a zone, `AddHints` hints the slices to
create, then those to update, then the unchanged ones `getHintsByZone` rejects: each endpoint to
its own zone, and some of them on to receiving zones. It stores the counts of step 1 with the
changes of the redistribution, and keeps the unchanged slices `getHintsByZone` accepts. -/
theorem addHints_of_allocations {t : TopologyCache} {si : SliceInfo} {allocations : Allocations}
    (h : t.getAllocations si.getTotalEndpoints = some allocations)
    (hzone : ∀ slice ∈ si.toCreate ++ si.toUpdate ++ si.unchanged,
      ∀ endpoint ∈ slice.endpoints, endpoint.zoneless = false) :
    ∃ allocatableSlices givingZones receivingZones,
      allocatableSlices = si.toCreate ++
        (si.toUpdate ++ si.unchanged.filter fun slice => !hintsAccepted allocations slice) ∧
      t.addHints si =
        (t.setHints si.serviceKey si.addressType
          ((redistributeHints (hintOwnZones allocatableSlices) givingZones receivingZones).2.entries.foldl
            (fun m diff => Go.addTo m diff.1 diff.2) (countOwnZones allocatableSlices ∅)),
          { si with
            toCreate := (redistributeHints (hintOwnZones allocatableSlices) givingZones
              receivingZones).1.take si.toCreate.length
            toUpdate := (redistributeHints (hintOwnZones allocatableSlices) givingZones
              receivingZones).1.drop si.toCreate.length
            unchanged := si.unchanged.filter (hintsAccepted allocations) }) := by
  have hnz : ((si.toCreate ++ (si.toUpdate ++ si.unchanged.filter fun slice =>
      !hintsAccepted allocations slice)).any fun slice => slice.endpoints.any Endpoint.zoneless) =
        false := by
    simp only [List.any_eq_false, Bool.not_eq_true]
    intro slice hslice endpoint hendpoint
    apply hzone slice _ endpoint hendpoint
    simp only [List.mem_append, List.mem_filter] at hslice ⊢
    tauto
  unfold TopologyCache.addHints
  simp only [h, getAllocatedHintsByZone_eq, hnz, Bool.false_eq_true, if_false]
  exact ⟨_, _, _, rfl, rfl⟩

/-- With allocations and a zone for every endpoint, every endpoint of the slices `AddHints`
creates and updates carries exactly one hint. -/
theorem addHints_hints_single {t : TopologyCache} {si : SliceInfo} {allocations : Allocations}
    (h : t.getAllocations si.getTotalEndpoints = some allocations)
    (hzone : ∀ slice ∈ si.toCreate ++ si.toUpdate ++ si.unchanged,
      ∀ endpoint ∈ slice.endpoints, endpoint.zoneless = false) :
    ∀ slice ∈ (t.addHints si).2.toCreate ++ (t.addHints si).2.toUpdate,
      ∀ endpoint ∈ slice.endpoints, ∃ zone, endpoint.hints = some [zone] := by
  obtain ⟨slices, givingZones, receivingZones, -, heq⟩ := addHints_of_allocations h hzone
  rw [heq]
  dsimp only
  rw [List.take_append_drop]
  exact redistributeHints_single (fun slice hslice endpoint hendpoint =>
    ⟨_, hintOwnZones_hints slice hslice endpoint hendpoint⟩) givingZones receivingZones

/-- With allocations and a zone for every endpoint, the count `AddHints` stores for a zone is the
number of endpoints of the slices it creates and updates hinted to that zone. -/
theorem addHints_storedHints {t : TopologyCache} {si : SliceInfo} {allocations : Allocations}
    (h : t.getAllocations si.getTotalEndpoints = some allocations)
    (hzone : ∀ slice ∈ si.toCreate ++ si.toUpdate ++ si.unchanged,
      ∀ endpoint ∈ slice.endpoints, endpoint.zoneless = false) (zone : String) :
    (t.addHints si).1.storedHints si.serviceKey si.addressType zone =
      hintCount zone ((t.addHints si).2.toCreate ++ (t.addHints si).2.toUpdate) := by
  obtain ⟨slices, givingZones, receivingZones, -, heq⟩ := addHints_of_allocations h hzone
  rw [heq]
  dsimp only
  rw [List.take_append_drop, storedHints_setHints, Go.getD_lookup_foldl_addTo,
    getD_lookup_countOwnZones, ← redistributeHints_hintCount zone hintOwnZones_hints]
  simp only [AList.lookup_empty, Option.getD_none, zero_add]
  ring

/-- With allocations and a zone for every endpoint, `AddHints` leaves unchanged exactly the
unchanged slices whose endpoints are all hinted to zones without an allocation. -/
theorem addHints_unchanged {t : TopologyCache} {si : SliceInfo} {allocations : Allocations}
    (h : t.getAllocations si.getTotalEndpoints = some allocations)
    (hzone : ∀ slice ∈ si.toCreate ++ si.toUpdate ++ si.unchanged,
      ∀ endpoint ∈ slice.endpoints, endpoint.zoneless = false) :
    (t.addHints si).2.unchanged = si.unchanged.filter (hintsAccepted allocations) := by
  obtain ⟨_, _, _, _, heq⟩ := addHints_of_allocations h hzone
  rw [heq]

/-- Two zones of equal CPU. -/
def twoZoneCache : TopologyCache :=
  ⟨some (((∅ : AList fun _ : String => ℤ).insert "a" 1000).insert "b" 1000), ∅⟩

/-- An endpoint of zone `b` to create, and an unchanged slice whose endpoint of zone `a` is still
hinted to a zone `c` that no longer has CPU. -/
def staleHintSliceInfo : SliceInfo :=
  ⟨"default/svc", .ipv4, [⟨[⟨some "b", none⟩]⟩], [], [⟨[⟨some "a", some ["c"]⟩]⟩]⟩

theorem addHints_keeps_unallocated_hint :
    (∀ slice ∈ staleHintSliceInfo.toCreate ++ staleHintSliceInfo.toUpdate ++
      staleHintSliceInfo.unchanged, ∀ endpoint ∈ slice.endpoints, endpoint.zoneless = false) ∧
    (twoZoneCache.getAllocations staleHintSliceInfo.getTotalEndpoints).map
      (fun allocations => allocations.lookup "c") = some none ∧
    (twoZoneCache.addHints staleHintSliceInfo).2.unchanged = staleHintSliceInfo.unchanged ∧
    hintCount "c" (twoZoneCache.addHints staleHintSliceInfo).2.unchanged = 1 ∧
    (twoZoneCache.addHints staleHintSliceInfo).1.storedHints "default/svc" .ipv4 "c" = 0 := by
  decide

end Kubernetes.TopologyHints
