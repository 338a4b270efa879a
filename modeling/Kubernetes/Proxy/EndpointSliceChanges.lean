import Kubernetes.Foundations.GoStd
import Kubernetes.Proxy.EndpointSliceCache

/-!
# The proxier's endpoints follow the latest EndpointSlices

Between two syncs the cache holds, for each Service, the slices the proxier has applied and those
pending; the proxier's `EndpointsMap` is, key by key, the endpoints of the applied slices
(`CacheInv`). An EndpointSlice event sets the pending info of its slice, so that applied and
pending together are the latest version of every slice of the Service (`cacheInv_sliceUpdate`),
as long as a slice stays with the Service its label named: the cache keys slices by the label of
each event, and never takes a slice out of the Service an earlier label put it in. A sync applies
the pending slices and moves every Service's endpoints to those of its applied slices
(`cacheInv_endpointsMapUpdate`). So after each sync the proxier's map is `getEndpointsMap` over
the latest slices of each Service (`endpointsMap_update_reflects_latest`); a slice whose label
moves it to another Service leaves its endpoints behind (`endpointsMap_update_relabeled_slice`).
The changes a sync hands on are one per Service with pending slices, changed or not: a slice
created and deleted before the sync gives one whose maps are equal
(`endpointsMap_update_relabeled_or_reverted`).
-/

namespace Kubernetes.Proxy

variable (cfg : CacheConfig)

/-! ## The endpoints of a Service are under its name -/

theorem mem_foldl_port_insert {serviceNN : NamespacedName} {sliceInfo : EndpointSliceInfo}
    {ports : List EndpointPort}
    {m : AList fun _ : ServicePortName => AList fun _ : String => BaseEndpointInfo}
    (hm : ∀ k ∈ m, k.namespacedName = serviceNN) :
    ∀ k ∈ ports.foldl (fun endpointInfoBySP port =>
      match port.name, port.port with
      | some name, some portNum =>
        if portNum = 0 then endpointInfoBySP
        else
          let svcPortName : ServicePortName := ⟨serviceNN, name, port.protocol⟩
          endpointInfoBySP.insert svcPortName (addEndpointsByIP cfg portNum.toInt
            ((endpointInfoBySP.lookup svcPortName).getD ∅) sliceInfo.endpoints)
      | _, _ => endpointInfoBySP) m, k.namespacedName = serviceNN := by
  induction ports generalizing m with
  | nil => exact hm
  | cons port ports ih =>
    apply ih
    intro k hk
    beta_reduce at hk
    split at hk
    · split at hk
      · exact hm k hk
      · rcases (AList.mem_insert _).mp hk with rfl | hk
        · rfl
        · exact hm k hk
    · exact hm k hk

/-- Every Service port `endpointInfoByServicePort` groups by is one of the Service's. -/
theorem namespacedName_of_mem_endpointInfoByServicePort {serviceNN : NamespacedName}
    {slices : List EndpointSliceInfo} {k : ServicePortName}
    (hk : k ∈ endpointInfoByServicePort cfg serviceNN slices) : k.namespacedName = serviceNN := by
  have hslices : ∀ (slices : List EndpointSliceInfo)
      (m : AList fun _ : ServicePortName => AList fun _ : String => BaseEndpointInfo),
      (∀ k ∈ m, k.namespacedName = serviceNN) →
      ∀ k ∈ slices.foldl (fun endpointInfoBySP sliceInfo =>
        sliceInfo.ports.foldl (fun endpointInfoBySP port =>
          match port.name, port.port with
          | some name, some portNum =>
            if portNum = 0 then endpointInfoBySP
            else
              let svcPortName : ServicePortName := ⟨serviceNN, name, port.protocol⟩
              endpointInfoBySP.insert svcPortName (addEndpointsByIP cfg portNum.toInt
                ((endpointInfoBySP.lookup svcPortName).getD ∅) sliceInfo.endpoints)
          | _, _ => endpointInfoBySP) endpointInfoBySP) m, k.namespacedName = serviceNN := by
    intro slices
    induction slices with
    | nil => exact fun _ hm => hm
    | cons sliceInfo slices ih => exact fun m hm => ih _ (mem_foldl_port_insert cfg hm)
  exact hslices slices ∅ (fun _ h => absurd h (AList.notMem_empty _)) k hk

theorem mem_of_mem_endpointsMapFromEndpointInfo
    {endpointInfoBySP : AList fun _ : ServicePortName => AList fun _ : String => BaseEndpointInfo}
    {k : ServicePortName} (hk : k ∈ endpointsMapFromEndpointInfo endpointInfoBySP) :
    k ∈ endpointInfoBySP := by
  have hentries : ∀ (l : List (Σ _ : ServicePortName, AList fun _ : String => BaseEndpointInfo))
      (em : EndpointsMap), k ∈ l.foldl (fun endpointsMap entry =>
        if entry.2.entries ≠ [] then
          endpointsMap.insert entry.1 (sortByIP (entry.2.entries.map Sigma.snd))
        else endpointsMap) em → k ∈ em ∨ k ∈ l.keys := by
    intro l
    induction l with
    | nil => exact fun _ h => .inl h
    | cons entry l ih =>
      intro em h
      rcases ih _ h with h | h
      · beta_reduce at h
        split at h
        · rcases (AList.mem_insert _).mp h with rfl | h
          · exact .inr List.mem_cons_self
          · exact .inl h
        · exact .inl h
      · exact .inr (List.mem_cons_of_mem _ h)
  rcases hentries _ ∅ hk with h | h
  · exact absurd h (AList.notMem_empty _)
  · exact AList.mem_keys.mpr h

/-- The endpoints map of a Service's slices has no key of another Service. -/
theorem lookup_getEndpointsMap_of_ne {serviceNN : NamespacedName} (slices : List EndpointSliceInfo)
    {k : ServicePortName} (hk : k.namespacedName ≠ serviceNN) :
    (getEndpointsMap cfg serviceNN slices).lookup k = none := by
  apply AList.lookup_eq_none.mpr
  intro hmem
  exact hk (namespacedName_of_mem_endpointInfoByServicePort cfg
    (mem_of_mem_endpointsMapFromEndpointInfo hmem))

/-! ## What a change does to the proxier's map -/

theorem lookup_unmerge_endpointsMap (em other : EndpointsMap) (k : ServicePortName) :
    (em.unmerge other).lookup k = if k ∈ other.keys then none else em.lookup k := by
  have h := Go.lookup_foldl_erase (fun _ => true) other.keys em k
  simpa [EndpointsMap.unmerge] using h

/-- A change takes the Service's keys from the previous map to the current one, when the
proxier's map agrees with the previous one there, and leaves the keys neither map has. -/
theorem lookup_applyEndpointsChange (em previous current : EndpointsMap) (k : ServicePortName) :
    ((em.unmerge previous).merge current).lookup k =
      (current.lookup k).or (if k ∈ previous.keys then none else em.lookup k) := by
  rw [EndpointsMap.merge, Go.lookup_union, lookup_unmerge_endpointsMap]

theorem lookup_applyEndpointsChange_of_eq {em previous : EndpointsMap} (current : EndpointsMap)
    {k : ServicePortName} (h : em.lookup k = previous.lookup k) :
    ((em.unmerge previous).merge current).lookup k = current.lookup k := by
  rw [lookup_applyEndpointsChange]
  cases hcur : current.lookup k with
  | some v => rfl
  | none =>
    by_cases hk : k ∈ previous.keys
    · simp [hk]
    · rw [if_neg hk, h, AList.lookup_eq_none.mpr (mt AList.mem_keys.mp hk)]
      rfl

theorem lookup_applyEndpointsChange_of_none (em : EndpointsMap) {previous current : EndpointsMap}
    {k : ServicePortName} (hprev : previous.lookup k = none) (hcur : current.lookup k = none) :
    ((em.unmerge previous).merge current).lookup k = em.lookup k := by
  have hk : k ∉ previous.keys := fun hk =>
    absurd (AList.lookup_isSome.mpr (AList.mem_keys.mpr hk)) (by simp [hprev])
  rw [lookup_applyEndpointsChange, hcur, if_neg hk]
  rfl

/-! ## A sync -/

/-- A tracker's view of one of its slices: the pending info unless it removes the slice, or
else the applied one. -/
def EndpointSliceTracker.sliceInfo (tracker : EndpointSliceTracker) (name : String) :
    Option EndpointSliceInfo :=
  match tracker.pending.lookup name with
  | some info => if info.remove then none else some info
  | none => tracker.applied.lookup name

/-- A tracker after `checkoutChanges`: its pending slices applied, when it has some. -/
def checkoutTracker (tracker : EndpointSliceTracker) : EndpointSliceTracker :=
  if tracker.pending.entries = [] then tracker
  else ⟨tracker.pending.entries.foldl applyPending tracker.applied, ∅⟩

/-- The change `checkoutChanges` makes for a tracker, when it has pending slices. -/
def changeOf (entry : Σ _ : NamespacedName, EndpointSliceTracker) : Option EndpointsChange :=
  if entry.2.pending.entries = [] then none
  else some ⟨getEndpointsMap cfg entry.1 (sliceInfos entry.2.applied),
    getEndpointsMap cfg entry.1 (sliceInfos (checkoutTracker entry.2).applied)⟩

/-- The loop of `checkoutChanges` gives the changes of the trackers with pending slices, and
checks those trackers out. -/
theorem foldl_checkoutService (l : List (Σ _ : NamespacedName, EndpointSliceTracker))
    (acc : List EndpointsChange × AList fun _ : NamespacedName => EndpointSliceTracker) :
    l.foldl (checkoutService cfg) acc =
      (acc.1 ++ l.filterMap (changeOf cfg),
        l.foldl (fun trackers entry => if entry.2.pending.entries = [] then trackers
          else trackers.insert entry.1 (checkoutTracker entry.2)) acc.2) := by
  induction l generalizing acc with
  | nil => simp
  | cons entry l ih =>
    rw [List.foldl_cons, ih, List.foldl_cons]
    by_cases h : entry.2.pending.entries = []
    · simp [checkoutService, changeOf, h]
    · simp [checkoutService, changeOf, checkoutTracker, h]

/-- Applying the pending slices of a tracker leaves its view of each slice. -/
theorem lookup_foldl_applyPending (l : List (Σ _ : String, EndpointSliceInfo)) (hl : l.NodupKeys)
    (applied : AList fun _ : String => EndpointSliceInfo) (name : String) :
    (l.foldl applyPending applied).lookup name =
      match l.dlookup name with
      | some info => if info.remove then none else some info
      | none => applied.lookup name := by
  induction l generalizing applied with
  | nil => rfl
  | cons entry l ih =>
    obtain ⟨hnot, hl⟩ := List.nodupKeys_cons.mp hl
    rw [List.foldl_cons, ih hl]
    by_cases hname : name = entry.1
    · subst hname
      rw [List.dlookup_eq_none.mpr hnot, List.dlookup_cons_eq]
      by_cases hremove : entry.2.remove <;> simp [applyPending, hremove]
    · have hstep : (applyPending applied entry).lookup name = applied.lookup name := by
        unfold applyPending
        split
        · exact AList.lookup_erase_ne hname
        · exact AList.lookup_insert_ne hname
      rw [List.dlookup_cons_ne _ _ hname, hstep]

theorem lookup_applied_checkoutTracker (tracker : EndpointSliceTracker) (name : String) :
    (checkoutTracker tracker).applied.lookup name = tracker.sliceInfo name := by
  unfold checkoutTracker EndpointSliceTracker.sliceInfo
  split
  · rename_i hnil
    have hnone : tracker.pending.lookup name = none := by simp [AList.lookup, hnil]
    rw [hnone]
  · exact lookup_foldl_applyPending _ tracker.pending.nodupKeys _ name

theorem lookup_pending_checkoutTracker (tracker : EndpointSliceTracker) (name : String) :
    (checkoutTracker tracker).pending.lookup name = none := by
  unfold checkoutTracker
  split
  · rename_i hnil
    simp [AList.lookup, hnil]
  · exact AList.lookup_empty name

theorem sliceInfo_checkoutTracker (tracker : EndpointSliceTracker) (name : String) :
    (checkoutTracker tracker).sliceInfo name = tracker.sliceInfo name := by
  have happlied := lookup_applied_checkoutTracker tracker name
  simp only [EndpointSliceTracker.sliceInfo, lookup_pending_checkoutTracker] at happlied ⊢
  exact happlied

theorem lookup_foldl_checkoutTracker (l : List (Σ _ : NamespacedName, EndpointSliceTracker))
    (hl : l.NodupKeys) (trackers : AList fun _ : NamespacedName => EndpointSliceTracker)
    (htrackers : ∀ e ∈ l, trackers.lookup e.1 = some e.2) (n : NamespacedName) :
    (l.foldl (fun trackers entry => if entry.2.pending.entries = [] then trackers
      else trackers.insert entry.1 (checkoutTracker entry.2)) trackers).lookup n =
      if n ∈ l.keys then (trackers.lookup n).map checkoutTracker else trackers.lookup n := by
  induction l generalizing trackers with
  | nil => simp
  | cons entry l ih =>
    obtain ⟨hnot, hl⟩ := List.nodupKeys_cons.mp hl
    have hentry := htrackers entry List.mem_cons_self
    have hself : (if entry.2.pending.entries = [] then trackers
        else trackers.insert entry.1 (checkoutTracker entry.2)).lookup entry.1 =
          some (checkoutTracker entry.2) := by
      split
      · rename_i hnil
        rw [hentry, checkoutTracker, if_pos hnil]
      · exact AList.lookup_insert _
    have hframe : ∀ m, m ≠ entry.1 → (if entry.2.pending.entries = [] then trackers
        else trackers.insert entry.1 (checkoutTracker entry.2)).lookup m = trackers.lookup m := by
      intro m hm
      split
      · rfl
      · exact AList.lookup_insert_ne hm
    rw [List.foldl_cons, ih hl _ (fun e he => by
      rw [hframe e.1 (fun h => hnot (h ▸ List.mem_keys_of_mem he))]
      exact htrackers e (List.mem_cons_of_mem _ he))]
    rw [List.keys_cons]
    by_cases hn : n = entry.1
    · subst hn
      rw [if_neg hnot, hself, if_pos List.mem_cons_self, hentry]
      rfl
    · rw [hframe n hn]
      simp only [List.mem_cons, hn, false_or]

/-- `checkoutChanges` checks every tracker out. -/
theorem lookup_checkoutChanges (cache : EndpointSliceCache) (n : NamespacedName) :
    (checkoutChanges cfg cache).2.trackerByServiceMap.lookup n =
      (cache.trackerByServiceMap.lookup n).map checkoutTracker := by
  have hfold := foldl_checkoutService cfg cache.trackerByServiceMap.entries
    ([], cache.trackerByServiceMap)
  simp only [checkoutChanges, hfold]
  rw [lookup_foldl_checkoutTracker _ cache.trackerByServiceMap.nodupKeys _
    (fun e he => AList.mem_lookup_iff.mpr he)]
  split
  · rfl
  · rename_i hn
    rw [AList.lookup_eq_none.mpr (fun h => hn (AList.mem_keys.mp h))]
    rfl

/-- The slices a Service's tracker has applied, in its map's order. -/
def appliedInfos (cache : EndpointSliceCache) (n : NamespacedName) : List EndpointSliceInfo :=
  ((cache.trackerByServiceMap.lookup n).map fun tracker => sliceInfos tracker.applied).getD []

/-- The proxier's map over the changes of trackers, in any order of distinct Services: a key of a
Service with a tracker takes its endpoints after the sync, provided it had those before. -/
theorem lookup_foldl_changeOf (l : List (Σ _ : NamespacedName, EndpointSliceTracker))
    (hl : l.NodupKeys) (em : EndpointsMap) (k : ServicePortName)
    (hem : ∀ t, l.dlookup k.namespacedName = some t →
      em.lookup k = (getEndpointsMap cfg k.namespacedName (sliceInfos t.applied)).lookup k) :
    ((l.filterMap (changeOf cfg)).foldl
        (fun em change => (em.unmerge change.previous).merge change.current) em).lookup k =
      match l.dlookup k.namespacedName with
      | some t =>
        (getEndpointsMap cfg k.namespacedName (sliceInfos (checkoutTracker t).applied)).lookup k
      | none => em.lookup k := by
  induction l generalizing em with
  | nil => rfl
  | cons entry l ih =>
    obtain ⟨m, t⟩ := entry
    obtain ⟨hnot, hl⟩ := List.nodupKeys_cons.mp hl
    have hrest : ∀ em' : EndpointsMap, (k.namespacedName ≠ m → em'.lookup k = em.lookup k) →
        ((l.filterMap (changeOf cfg)).foldl
          (fun em change => (em.unmerge change.previous).merge change.current) em').lookup k =
        match l.dlookup k.namespacedName with
        | some t =>
          (getEndpointsMap cfg k.namespacedName (sliceInfos (checkoutTracker t).applied)).lookup k
        | none => em'.lookup k := by
      intro em' hem'
      apply ih hl
      intro t' ht'
      have hne : k.namespacedName ≠ m := fun h =>
        hnot (h ▸ List.dlookup_isSome.mp (by simp [ht']))
      rw [hem' hne]
      exact hem t' (by rw [List.dlookup_cons_ne _ _ hne]; exact ht')
    by_cases hk : k.namespacedName = m
    · subst hk
      have hnone : l.dlookup k.namespacedName = none := List.dlookup_eq_none.mpr hnot
      have hemk := hem t (List.dlookup_cons_eq _ _ _)
      rw [List.dlookup_cons_eq, List.filterMap_cons, changeOf]
      by_cases hnil : t.pending.entries = []
      · have hck : checkoutTracker t = t := if_pos hnil
        rw [if_pos hnil, hrest em (fun h => absurd rfl h), hnone]
        dsimp only
        rw [hemk, hck]
      · rw [if_neg hnil, List.foldl_cons, hrest _ (fun h => absurd rfl h), hnone]
        exact lookup_applyEndpointsChange_of_eq _ hemk
    · rw [List.dlookup_cons_ne _ _ hk, List.filterMap_cons, changeOf]
      by_cases hnil : t.pending.entries = []
      · rw [if_pos hnil]
        exact hrest em (fun _ => rfl)
      · have hkeep := lookup_applyEndpointsChange_of_none em
          (lookup_getEndpointsMap_of_ne cfg (sliceInfos t.applied) hk)
          (lookup_getEndpointsMap_of_ne cfg (sliceInfos (checkoutTracker t).applied) hk)
        rw [if_neg hnil, List.foldl_cons]
        dsimp only
        rw [hrest _ (fun _ => hkeep), hkeep]

/-- A sync moves each key to the endpoints of its Service's slices once applied, when the
proxier's map held those of the slices applied before. -/
theorem lookup_endpointsMap_update {em : EndpointsMap} {cache : EndpointSliceCache}
    (hem : ∀ k, em.lookup k =
      (getEndpointsMap cfg k.namespacedName (appliedInfos cache k.namespacedName)).lookup k)
    (k : ServicePortName) :
    (EndpointsMap.update cfg em cache).1.lookup k =
      (getEndpointsMap cfg k.namespacedName
        (appliedInfos (checkoutChanges cfg cache).2 k.namespacedName)).lookup k := by
  have hfold := foldl_checkoutService cfg cache.trackerByServiceMap.entries
    ([], cache.trackerByServiceMap)
  have hchanges : (checkoutChanges cfg cache).1 =
      cache.trackerByServiceMap.entries.filterMap (changeOf cfg) := by
    simp only [checkoutChanges, hfold, List.nil_append]
  simp only [EndpointsMap.update, hchanges]
  rw [lookup_foldl_changeOf cfg _ cache.trackerByServiceMap.nodupKeys em k (fun t ht => by
    rw [hem k, appliedInfos]
    change AList.lookup k.namespacedName cache.trackerByServiceMap = some t at ht
    rw [ht]
    rfl)]
  rw [appliedInfos, lookup_checkoutChanges]
  change (match cache.trackerByServiceMap.lookup k.namespacedName with
    | some t => _ | none => _) = _
  cases ht : cache.trackerByServiceMap.lookup k.namespacedName with
  | some t => rfl
  | none => rw [hem k, appliedInfos, ht]; rfl

/-! ## An EndpointSlice event -/

/-- The Service kube-proxy files a slice under: the one its label names, for a slice of an
address type it handles and with keys. -/
def sliceService (slice : EndpointSlice) : Option NamespacedName :=
  if supportedAddressType slice.addressType then
    match endpointSliceCacheKeys slice with
    | .ok keys => some keys.1
    | .error _ => none
  else none

theorem endpointSliceCacheKeys_of_sliceService {slice : EndpointSlice} {n : NamespacedName}
    (h : sliceService slice = some n) :
    endpointSliceCacheKeys slice = .ok (n, slice.name) ∧ n.«namespace» = slice.«namespace» := by
  unfold sliceService at h
  split at h
  · split at h
    · rename_i keys hkeys
      cases h
      unfold endpointSliceCacheKeys at hkeys ⊢
      split at hkeys
      · split at hkeys
        · cases hkeys
        · split at hkeys
          · cases hkeys
          · cases hkeys
            simp_all
      · cases hkeys
    · cases h
  · cases h

theorem endpointSliceUpdate_of_sliceService_none {cache : EndpointSliceCache}
    {slice : EndpointSlice} (h : sliceService slice = none) (removeSlice : Bool) :
    (endpointSliceUpdate cfg cache slice removeSlice).1 = cache := by
  unfold endpointSliceUpdate
  unfold sliceService at h
  split
  · rfl
  · rename_i hsupported
    rw [if_pos (by simpa using hsupported)] at h
    split
    · rfl
    · rename_i keys hkeys
      rw [hkeys] at h
      cases h

theorem endpointSliceUpdate_of_sliceService_some {cache : EndpointSliceCache}
    {slice : EndpointSlice} {n : NamespacedName} (h : sliceService slice = some n)
    (removeSlice : Bool) :
    endpointSliceUpdate cfg cache slice removeSlice = updatePending cfg cache slice removeSlice := by
  have hkeys := (endpointSliceCacheKeys_of_sliceService h).1
  unfold sliceService at h
  unfold endpointSliceUpdate
  split
  · rename_i hunsupported
    rw [if_neg (by simpa using hunsupported)] at h
    cases h
  · rw [hkeys]

/-- A tracker whose info of a slice is not changed already shows that info. -/
theorem sliceInfo_of_not_esInfoChanged {cache : EndpointSliceCache} {n : NamespacedName}
    {tracker : EndpointSliceTracker} (htracker : cache.trackerByServiceMap.lookup n = some tracker)
    (happlied : ∀ name info, tracker.applied.lookup name = some info → info.remove = false)
    {name : String} {esInfo : EndpointSliceInfo}
    (h : esInfoChanged cache n name esInfo = false) :
    tracker.sliceInfo name = if esInfo.remove then none else some esInfo := by
  unfold esInfoChanged at h
  rw [htracker] at h
  unfold EndpointSliceTracker.sliceInfo
  cases hpending : tracker.pending.lookup name with
  | some pendingInfo =>
    have heq : esInfo = pendingInfo := by simpa [hpending] using h
    simp [heq]
  | none =>
    cases happliedInfo : tracker.applied.lookup name with
    | some appliedInfo =>
      have heq : esInfo = appliedInfo := by simpa [hpending, happliedInfo] using h
      simp [heq, happlied name appliedInfo happliedInfo]
    | none =>
      have hremove : esInfo.remove = true := by simpa [hpending, happliedInfo] using h
      simp [hremove]

/-- `updatePending` on a Service with a tracker: it leaves the other Services' trackers, and the
Service's tracker keeps its applied slices and its other pending slices, and shows the new info
of the slice. -/
theorem updatePending_of_lookup {cache : EndpointSliceCache} {slice : EndpointSlice}
    (remove : Bool) {n : NamespacedName} {name : String}
    (hkeys : endpointSliceCacheKeys slice = .ok (n, name)) {t₀ : EndpointSliceTracker}
    (ht₀ : cache.trackerByServiceMap.lookup n = some t₀)
    (happlied : ∀ name info, t₀.applied.lookup name = some info → info.remove = false) :
    (∀ m, m ≠ n → (updatePending cfg cache slice remove).1.trackerByServiceMap.lookup m =
      cache.trackerByServiceMap.lookup m) ∧
    ∃ t, (updatePending cfg cache slice remove).1.trackerByServiceMap.lookup n = some t ∧
      t.applied = t₀.applied ∧ (∀ name', name' ≠ name → t.pending.lookup name' = t₀.pending.lookup name') ∧
      t.sliceInfo name = if remove then none else some (newEndpointSliceInfo cfg slice remove) := by
  simp only [updatePending, hkeys, ht₀]
  split
  · refine ⟨fun m hm => AList.lookup_insert_ne hm, _, AList.lookup_insert _, rfl,
      fun name' hname' => AList.lookup_insert_ne hname', ?_⟩
    simp [EndpointSliceTracker.sliceInfo, newEndpointSliceInfo]
  · rename_i hchanged
    refine ⟨fun _ _ => rfl, t₀, ht₀, rfl, fun _ _ => rfl, ?_⟩
    exact sliceInfo_of_not_esInfoChanged ht₀ happlied (by simpa using hchanged)

/-- On a Service without a tracker, `updatePending` first gives it an empty one. -/
theorem updatePending_of_lookup_none {cache : EndpointSliceCache} {slice : EndpointSlice}
    {remove : Bool} {n : NamespacedName} {name : String}
    (hkeys : endpointSliceCacheKeys slice = .ok (n, name))
    (hnone : cache.trackerByServiceMap.lookup n = none) :
    updatePending cfg cache slice remove =
      updatePending cfg ⟨cache.trackerByServiceMap.insert n ⟨∅, ∅⟩⟩ slice remove := by
  simp only [updatePending, hkeys, hnone, AList.lookup_insert]

/-- What `updatePending` does to the cache, for a slice of the Service `n` named `name`, in terms
of the Service's tracker before, an empty one if it had none. -/
theorem updatePending_cases {cache : EndpointSliceCache} {slice : EndpointSlice} (remove : Bool)
    {n : NamespacedName} {name : String}
    (hkeys : endpointSliceCacheKeys slice = .ok (n, name))
    (happlied : ∀ t, cache.trackerByServiceMap.lookup n = some t →
      ∀ name info, t.applied.lookup name = some info → info.remove = false) :
    (∀ m, m ≠ n → (updatePending cfg cache slice remove).1.trackerByServiceMap.lookup m =
      cache.trackerByServiceMap.lookup m) ∧
    ∃ t, (updatePending cfg cache slice remove).1.trackerByServiceMap.lookup n = some t ∧
      t.applied = ((cache.trackerByServiceMap.lookup n).getD ⟨∅, ∅⟩).applied ∧
      (∀ name', name' ≠ name →
        t.pending.lookup name' = ((cache.trackerByServiceMap.lookup n).getD ⟨∅, ∅⟩).pending.lookup name') ∧
      t.sliceInfo name = if remove then none else some (newEndpointSliceInfo cfg slice remove) := by
  cases hlook : cache.trackerByServiceMap.lookup n with
  | some t₀ => exact updatePending_of_lookup cfg remove hkeys hlook (happlied t₀ hlook)
  | none =>
    rw [updatePending_of_lookup_none cfg hkeys hlook]
    have hinsert : (⟨cache.trackerByServiceMap.insert n ⟨∅, ∅⟩⟩ : EndpointSliceCache).trackerByServiceMap.lookup n =
        some ⟨∅, ∅⟩ := AList.lookup_insert _
    obtain ⟨hframe, hself⟩ := updatePending_of_lookup cfg remove hkeys hinsert
      (fun _ _ h => absurd h (by simp))
    exact ⟨fun m hm => (hframe m hm).trans (AList.lookup_insert_ne hm), hself⟩

/-! ## Runs of the proxier -/

/-- What the proxier does with EndpointSlices: `OnEndpointSliceAdd`, `OnEndpointSliceUpdate` and
`OnEndpointSliceDelete` hand a slice to `EndpointSliceUpdate`, and a sync calls
`EndpointsMap.Update`. -/
inductive SliceEvent
  | endpointSliceUpdate (slice : EndpointSlice) (removeSlice : Bool)
  | endpointsMapUpdate

/-- The proxier's map and its cache. -/
structure EndpointsState where
  endpointsMap : EndpointsMap
  cache : EndpointSliceCache

/-- The proxier on one event. -/
def EndpointsState.step (s : EndpointsState) : SliceEvent → EndpointsState
  | .endpointSliceUpdate slice removeSlice =>
    { s with cache := (endpointSliceUpdate cfg s.cache slice removeSlice).1 }
  | .endpointsMapUpdate =>
    let (endpointsMap, cache) := EndpointsMap.update cfg s.endpointsMap s.cache
    ⟨endpointsMap, cache⟩

/-- The proxier on a history of events. -/
def EndpointsState.run (s : EndpointsState) (events : List SliceEvent) : EndpointsState :=
  events.foldl (EndpointsState.step cfg) s

/-- The latest version of every EndpointSlice, by namespace and name, after an event: a removed
slice is gone. -/
def recordSlice (latest : String × String → Option EndpointSlice) :
    SliceEvent → String × String → Option EndpointSlice
  | .endpointSliceUpdate slice removeSlice =>
    Function.update latest (slice.«namespace», slice.name) (if removeSlice then none else some slice)
  | .endpointsMapUpdate => latest

@[simp] theorem recordSlice_endpointSliceUpdate (latest : String × String → Option EndpointSlice)
    (slice : EndpointSlice) (removeSlice : Bool) :
    recordSlice latest (.endpointSliceUpdate slice removeSlice) =
      Function.update latest (slice.«namespace», slice.name)
        (if removeSlice then none else some slice) := rfl

@[simp] theorem recordSlice_endpointsMapUpdate (latest : String × String → Option EndpointSlice) :
    recordSlice latest .endpointsMapUpdate = latest := rfl

/-- The latest version of every EndpointSlice after a history. -/
def latestSlices (latest : String × String → Option EndpointSlice) (events : List SliceEvent) :
    String × String → Option EndpointSlice :=
  events.foldl recordSlice latest

/-- The info kube-proxy keeps of the latest version of the slice `name` of the Service `n`. -/
def latestSliceInfo (latest : String × String → Option EndpointSlice) (n : NamespacedName)
    (name : String) : Option EndpointSliceInfo :=
  match latest (n.«namespace», name) with
  | some slice => if sliceService slice = some n then some (newEndpointSliceInfo cfg slice false)
    else none
  | none => none

/-- An event keeps a slice filed under a Service with that Service: its label does not move
an existing slice to another one. -/
def StaysWithService (latest : String × String → Option EndpointSlice) : SliceEvent → Prop
  | .endpointSliceUpdate slice _ => ∀ v n, latest (slice.«namespace», slice.name) = some v →
    sliceService v = some n → sliceService slice = some n
  | .endpointsMapUpdate => True

/-- A history whose events keep every slice with its Service. -/
def ConsistentSliceHistory : (String × String → Option EndpointSlice) → List SliceEvent → Prop
  | _, [] => True
  | latest, e :: events => StaysWithService latest e ∧ ConsistentSliceHistory (recordSlice latest e) events

/-- The cache's view of the slice `name` of the Service `n`. -/
def trackerSliceInfo (cache : EndpointSliceCache) (n : NamespacedName) (name : String) :
    Option EndpointSliceInfo :=
  (cache.trackerByServiceMap.lookup n).bind (·.sliceInfo name)

/-- The cache between two syncs: applied slices are never removals, the cache shows the latest
version of every slice of every Service, and the proxier's map holds the endpoints of the applied
slices. -/
structure CacheInv (latest : String × String → Option EndpointSlice) (s : EndpointsState) :
    Prop where
  applied_not_remove : ∀ n t, s.cache.trackerByServiceMap.lookup n = some t →
    ∀ name info, t.applied.lookup name = some info → info.remove = false
  sliceInfo_eq : ∀ n name, trackerSliceInfo s.cache n name = latestSliceInfo cfg latest n name
  endpoints : ∀ k, s.endpointsMap.lookup k =
    (getEndpointsMap cfg k.namespacedName (appliedInfos s.cache k.namespacedName)).lookup k

theorem cacheInv_empty : CacheInv cfg (fun _ => none) ⟨∅, ⟨∅⟩⟩ where
  applied_not_remove _ _ h := by simp at h
  sliceInfo_eq _ _ := rfl
  endpoints _ := rfl

/-- An event that files no slice leaves what kube-proxy keeps of the latest slices. -/
theorem latestSliceInfo_recordSlice_of_none {latest : String × String → Option EndpointSlice}
    {slice : EndpointSlice} (removeSlice : Bool)
    (hstay : StaysWithService latest (.endpointSliceUpdate slice removeSlice))
    (hnone : sliceService slice = none) (n : NamespacedName) (name : String) :
    latestSliceInfo cfg (recordSlice latest (.endpointSliceUpdate slice removeSlice)) n name =
      latestSliceInfo cfg latest n name := by
  rw [recordSlice_endpointSliceUpdate]
  unfold latestSliceInfo
  by_cases hkey : (n.«namespace», name) = (slice.«namespace», slice.name)
  · rw [hkey, Function.update_self]
    cases hv : latest (slice.«namespace», slice.name) with
    | none => cases removeSlice <;> simp [hnone]
    | some v =>
      have hv' : sliceService v ≠ some n := fun h => by
        rw [hstay v n hv h] at hnone
        cases hnone
      cases removeSlice <;> simp [hnone, hv']
  · rw [Function.update_of_ne hkey]

/-- The latest slices of a Service after an event filing a slice under `n₀`. -/
theorem latestSliceInfo_recordSlice_of_some {latest : String × String → Option EndpointSlice}
    {slice : EndpointSlice} (removeSlice : Bool)
    (hstay : StaysWithService latest (.endpointSliceUpdate slice removeSlice)) {n₀ : NamespacedName}
    (hsome : sliceService slice = some n₀) (n : NamespacedName) (name : String) :
    latestSliceInfo cfg (recordSlice latest (.endpointSliceUpdate slice removeSlice)) n name =
      if n = n₀ ∧ name = slice.name then
        (if removeSlice then none else some (newEndpointSliceInfo cfg slice false))
      else latestSliceInfo cfg latest n name := by
  have hns := (endpointSliceCacheKeys_of_sliceService hsome).2
  rw [recordSlice_endpointSliceUpdate]
  unfold latestSliceInfo
  by_cases hkey : (n.«namespace», name) = (slice.«namespace», slice.name)
  · obtain ⟨hns', hname⟩ := Prod.mk.inj hkey
    rw [hkey, Function.update_self]
    by_cases hn : n = n₀
    · subst hn
      cases removeSlice <;> simp [hname, hsome]
    · -- a slice of `n₀` was never one of `n`'s
      have hv : ∀ v, latest (slice.«namespace», slice.name) = some v → sliceService v ≠ some n :=
        fun v hv h => hn (Option.some.inj ((hstay v n hv h).symm.trans hsome))
      cases hlatest : latest (slice.«namespace», slice.name) with
      | none => cases removeSlice <;> simp [hn, hsome, Ne.symm hn]
      | some v => cases removeSlice <;> simp [hn, hsome, Ne.symm hn, hv v hlatest]
  · rw [Function.update_of_ne hkey]
    have : ¬(n = n₀ ∧ name = slice.name) := fun ⟨hn, hname⟩ =>
      hkey (by rw [hn, hname, hns])
    rw [if_neg this]

theorem appliedInfos_eq_getD (cache : EndpointSliceCache) (n : NamespacedName) :
    appliedInfos cache n = sliceInfos ((cache.trackerByServiceMap.lookup n).getD ⟨∅, ∅⟩).applied := by
  unfold appliedInfos
  cases cache.trackerByServiceMap.lookup n <;> rfl

theorem trackerSliceInfo_eq_getD (cache : EndpointSliceCache) (n : NamespacedName) (name : String) :
    trackerSliceInfo cache n name =
      ((cache.trackerByServiceMap.lookup n).getD ⟨∅, ∅⟩).sliceInfo name := by
  unfold trackerSliceInfo
  cases cache.trackerByServiceMap.lookup n <;> rfl

/-- A tracker whose applied slices are not removals shows no removal. -/
theorem EndpointSliceTracker.remove_of_sliceInfo {t : EndpointSliceTracker}
    (happlied : ∀ name info, t.applied.lookup name = some info → info.remove = false)
    {name : String} {info : EndpointSliceInfo} (h : t.sliceInfo name = some info) :
    info.remove = false := by
  unfold EndpointSliceTracker.sliceInfo at h
  split at h
  · -- a pending removal shows nothing
    split_ifs at h with hremove
    cases h
    simpa using hremove
  · exact happlied name info h

variable {cfg}

/-- An EndpointSlice event keeps the invariant: it changes only the cache's view of its own slice,
to the event's version, which is the latest. -/
theorem cacheInv_sliceUpdate {latest : String × String → Option EndpointSlice} {s : EndpointsState}
    (hinv : CacheInv cfg latest s) {slice : EndpointSlice} {removeSlice : Bool}
    (hstay : StaysWithService latest (.endpointSliceUpdate slice removeSlice)) :
    CacheInv cfg (recordSlice latest (.endpointSliceUpdate slice removeSlice))
      (s.step cfg (.endpointSliceUpdate slice removeSlice)) := by
  cases hsvc : sliceService slice with
  | none =>
    have hstep : s.step cfg (.endpointSliceUpdate slice removeSlice) = s := by
      simp only [EndpointsState.step, endpointSliceUpdate_of_sliceService_none cfg hsvc]
    rw [hstep]
    refine ⟨hinv.applied_not_remove, fun n name => ?_, hinv.endpoints⟩
    rw [hinv.sliceInfo_eq, latestSliceInfo_recordSlice_of_none cfg removeSlice hstay hsvc]
  | some n₀ =>
    obtain ⟨hkeys, -⟩ := endpointSliceCacheKeys_of_sliceService hsvc
    obtain ⟨hframe, t, ht, happlied, hpending, hself⟩ :=
      updatePending_cases cfg removeSlice hkeys (hinv.applied_not_remove n₀)
    have hstep : (s.step cfg (.endpointSliceUpdate slice removeSlice)).cache =
        (updatePending cfg s.cache slice removeSlice).1 := by
      simp only [EndpointsState.step, endpointSliceUpdate_of_sliceService_some cfg hsvc]
    constructor
    · intro m t' ht' name info hinfo
      rw [hstep] at ht'
      by_cases hm : m = n₀
      · subst hm
        rw [ht] at ht'
        cases ht'
        rw [happlied] at hinfo
        cases hlook : s.cache.trackerByServiceMap.lookup m with
        | none => simp [hlook] at hinfo
        | some t₀ =>
          rw [hlook] at hinfo
          exact hinv.applied_not_remove m t₀ hlook name info hinfo
      · rw [hframe m hm] at ht'
        exact hinv.applied_not_remove m t' ht' name info hinfo
    · intro m name
      rw [latestSliceInfo_recordSlice_of_some cfg removeSlice hstay hsvc, trackerSliceInfo, hstep]
      by_cases hm : m = n₀
      · subst hm
        rw [ht]
        by_cases hname : name = slice.name
        · subst hname
          cases removeSlice <;> simp [hself]
        · rw [if_neg (fun h => hname h.2), ← hinv.sliceInfo_eq, trackerSliceInfo_eq_getD]
          simp only [Option.bind_some, EndpointSliceTracker.sliceInfo, hpending name hname, happlied]
      · rw [if_neg (fun h => hm h.1), hframe m hm]
        exact hinv.sliceInfo_eq m name
    · intro k
      have hem : (s.step cfg (.endpointSliceUpdate slice removeSlice)).endpointsMap =
          s.endpointsMap := rfl
      rw [hem, hinv.endpoints k, hstep, appliedInfos_eq_getD, appliedInfos_eq_getD]
      by_cases hk : k.namespacedName = n₀
      · rw [hk, ht]
        simp only [Option.getD_some, happlied]
      · rw [hframe _ hk]

/-- A sync keeps the invariant: it applies every pending slice, which leaves the cache's view of
every slice, and moves the proxier's map to the applied slices. -/
theorem cacheInv_endpointsMapUpdate {latest : String × String → Option EndpointSlice}
    {s : EndpointsState} (hinv : CacheInv cfg latest s) :
    CacheInv cfg latest (s.step cfg .endpointsMapUpdate) := by
  have hcache : (s.step cfg .endpointsMapUpdate).cache = (checkoutChanges cfg s.cache).2 := rfl
  constructor
  · intro n t ht name info hinfo
    rw [hcache, lookup_checkoutChanges] at ht
    obtain ⟨t₀, ht₀, rfl⟩ := Option.map_eq_some_iff.mp ht
    rw [lookup_applied_checkoutTracker] at hinfo
    exact EndpointSliceTracker.remove_of_sliceInfo (hinv.applied_not_remove n t₀ ht₀) hinfo
  · intro n name
    rw [← hinv.sliceInfo_eq, trackerSliceInfo, trackerSliceInfo, hcache, lookup_checkoutChanges]
    cases s.cache.trackerByServiceMap.lookup n with
    | none => rfl
    | some t => exact sliceInfo_checkoutTracker t name
  · exact lookup_endpointsMap_update cfg hinv.endpoints

theorem cacheInv_step {latest : String × String → Option EndpointSlice} {s : EndpointsState}
    (hinv : CacheInv cfg latest s) {e : SliceEvent} (hstay : StaysWithService latest e) :
    CacheInv cfg (recordSlice latest e) (s.step cfg e) := by
  cases e with
  | endpointSliceUpdate slice removeSlice => exact cacheInv_sliceUpdate hinv hstay
  | endpointsMapUpdate => exact cacheInv_endpointsMapUpdate hinv

/-- Every consistent history keeps the invariant. -/
theorem cacheInv_run {latest : String × String → Option EndpointSlice} {s : EndpointsState}
    (hinv : CacheInv cfg latest s) {events : List SliceEvent} (hcons : ConsistentSliceHistory latest events) :
    CacheInv cfg (latestSlices latest events) (s.run cfg events) := by
  induction events generalizing latest s with
  | nil => exact hinv
  | cons e events ih => exact ih (cacheInv_step hinv hcons.1) hcons.2

/-- After a sync no slice is pending. -/
theorem pending_lookup_endpointsMapUpdate (s : EndpointsState) {n : NamespacedName}
    {t : EndpointSliceTracker}
    (ht : (s.step cfg .endpointsMapUpdate).cache.trackerByServiceMap.lookup n = some t)
    (name : String) : t.pending.lookup name = none := by
  change (checkoutChanges cfg s.cache).2.trackerByServiceMap.lookup n = some t at ht
  rw [lookup_checkoutChanges] at ht
  obtain ⟨t₀, -, rfl⟩ := Option.map_eq_some_iff.mp ht
  exact lookup_pending_checkoutTracker t₀ name

/-- After each sync of a consistent history, the proxier's endpoints of every Service are those
`getEndpointsMap` computes from the latest version of each of the Service's slices, taken once
each in some order. -/
theorem endpointsMap_update_reflects_latest {events : List SliceEvent}
    (hcons : ConsistentSliceHistory (fun _ => none) events) (n : NamespacedName) :
    ∃ l : List (Σ _ : String, EndpointSliceInfo), l.NodupKeys ∧
      (∀ name info, ⟨name, info⟩ ∈ l ↔
        latestSliceInfo cfg (latestSlices (fun _ => none) events) n name = some info) ∧
      ∀ k, k.namespacedName = n →
        (((EndpointsState.run cfg ⟨∅, ⟨∅⟩⟩ events).step cfg .endpointsMapUpdate).endpointsMap.lookup k) =
          (getEndpointsMap cfg n (l.map Sigma.snd)).lookup k := by
  have hinv := cacheInv_endpointsMapUpdate (cacheInv_run (cacheInv_empty cfg) hcons)
  set s := (EndpointsState.run cfg ⟨∅, ⟨∅⟩⟩ events).step cfg .endpointsMapUpdate with hs
  have hview : ∀ t, s.cache.trackerByServiceMap.lookup n = some t → ∀ name,
      t.applied.lookup name = latestSliceInfo cfg (latestSlices (fun _ => none) events) n name := by
    intro t ht name
    rw [← hinv.sliceInfo_eq, trackerSliceInfo, ht, Option.bind_some, EndpointSliceTracker.sliceInfo,
      pending_lookup_endpointsMapUpdate _ ht]
  cases ht : s.cache.trackerByServiceMap.lookup n with
  | none =>
    refine ⟨[], List.nodupKeys_nil, fun name info => ?_, fun k hk => ?_⟩
    · rw [← hinv.sliceInfo_eq, trackerSliceInfo, ht]
      simp
    · rw [hinv.endpoints k, appliedInfos, hk, ht]
      rfl
  | some t =>
    refine ⟨t.applied.entries, t.applied.nodupKeys, fun name info => ?_, fun k hk => ?_⟩
    · rw [← hview t ht name]
      exact AList.mem_lookup_iff.symm
    · rw [hinv.endpoints k, appliedInfos, hk, ht]
      rfl

/-- A proxier on the node `node-1`, for IPv4, without topology hints. -/
def nodeConfig : CacheConfig := ⟨"node-1", .ipv4, false, id⟩

/-- The slice `default/web-abc` with one HTTP endpoint, labelled for the Service `serviceName`. -/
def webSlice (serviceName : String) : EndpointSlice :=
  ⟨"default", "web-abc", some serviceName, .ipv4, [⟨some "http", .tcp, some 80⟩],
    [⟨["10.0.0.1"], false, ⟨none, none, none⟩, none, ∅, []⟩], by decide⟩

theorem endpointsMap_update_reflects_latest_web :
    ConsistentSliceHistory (fun _ => none) [.endpointSliceUpdate (webSlice "a") false] ∧
      ∃ l : List (Σ _ : String, EndpointSliceInfo), l.NodupKeys ∧
        (∀ name info, ⟨name, info⟩ ∈ l ↔ latestSliceInfo nodeConfig
          (latestSlices (fun _ => none) [.endpointSliceUpdate (webSlice "a") false])
          ⟨"default", "a"⟩ name = some info) ∧
        ∀ k, k.namespacedName = ⟨"default", "a"⟩ →
          (((EndpointsState.run nodeConfig ⟨∅, ⟨∅⟩⟩
            [.endpointSliceUpdate (webSlice "a") false]).step nodeConfig
              .endpointsMapUpdate).endpointsMap.lookup k) =
            (getEndpointsMap nodeConfig ⟨"default", "a"⟩ (l.map Sigma.snd)).lookup k := by
  have hcons : ConsistentSliceHistory (fun _ => none) [.endpointSliceUpdate (webSlice "a") false] := by
    show StaysWithService _ _ ∧ ConsistentSliceHistory _ []
    exact ⟨fun _ _ h => by simp at h, trivial⟩
  exact ⟨hcons, endpointsMap_update_reflects_latest hcons _⟩

/-- `default/web-abc` is created for the Service `a`, synced, then relabelled for `b`. -/
def relabelEvents : List SliceEvent :=
  [.endpointSliceUpdate (webSlice "a") false, .endpointsMapUpdate,
    .endpointSliceUpdate (webSlice "b") false]

/-- After the next sync the Service `a` has no slice left, but the proxier still has its HTTP
port's endpoint: the cache filed the relabelled slice under `b` and kept it under `a`. -/
theorem endpointsMap_update_relabeled_slice :
    (∀ name, latestSliceInfo nodeConfig (latestSlices (fun _ => none) relabelEvents)
      ⟨"default", "a"⟩ name = none) ∧
    (((EndpointsState.run nodeConfig ⟨∅, ⟨∅⟩⟩ relabelEvents).step nodeConfig
      .endpointsMapUpdate).endpointsMap.lookup ⟨⟨"default", "a"⟩, "http", .tcp⟩).isSome = true := by
  refine ⟨fun name => ?_, by decide⟩
  by_cases hname : name = "web-abc"
  · subst hname
    decide
  · simp [latestSliceInfo, latestSlices, relabelEvents, webSlice, hname]

/-- `default/web-abc` is created for the Service `a`, then deleted again before any sync. -/
def revertEvents : List SliceEvent :=
  [.endpointSliceUpdate (webSlice "a") false, .endpointSliceUpdate (webSlice "a") true]

/-- **The change list is not the Services whose map changed.** A slice created and deleted
before a sync leaves a pending removal under its Service, so the sync's change list holds one
change for `a`, whose previous and current maps are the same; and a relabelled slice stays
under its old Service. -/
theorem endpointsMap_update_relabeled_or_reverted :
    ((∀ name, latestSliceInfo nodeConfig (latestSlices (fun _ => none) relabelEvents)
      ⟨"default", "a"⟩ name = none) ∧
    (((EndpointsState.run nodeConfig ⟨∅, ⟨∅⟩⟩ relabelEvents).step nodeConfig
      .endpointsMapUpdate).endpointsMap.lookup ⟨⟨"default", "a"⟩, "http", .tcp⟩).isSome = true) ∧
    (EndpointsState.run nodeConfig ⟨∅, ⟨∅⟩⟩ revertEvents).cache.trackerByServiceMap.keys =
        [⟨"default", "a"⟩] ∧
      ∃ unchanged : EndpointsMap,
        (checkoutChanges nodeConfig (EndpointsState.run nodeConfig ⟨∅, ⟨∅⟩⟩ revertEvents).cache).1 =
          [⟨unchanged, unchanged⟩] :=
  ⟨endpointsMap_update_relabeled_slice, by decide, _, rfl⟩

end Kubernetes.Proxy
