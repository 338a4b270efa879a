import Kubernetes.Foundations.GoStd
import Kubernetes.Proxy.ServiceMap

/-!
# A batch of Service changes gives the Services' latest versions

kube-proxy does not apply a Service event when it comes: `ServiceChangeTracker.Update` records
it, and `ServiceMap.Update` applies the records of every Service that changed since the last sync.
The map it produces is the one the latest version of every Service translates to, whatever order
the records are visited in, and so the same map as a sync after every event.

* A Service's ports all carry its name (`namespacedName_of_isSome_lookupIn`), so the Services
  own disjoint parts of the map.
* `lookup_applyChange`: applying a record sets a key to its value in the current map, deletes it
  when only the previous map has it, and leaves it otherwise.
* `TrackerInv`: the record of a Service holds the map of its version at the last sync and the map
  of its latest version; a Service with no record translates as it did at the last sync. Every
  event of a consistent history keeps it (`trackerInv_update`), so every run does
  (`trackerInv_run`).
* `update_reflects`: from a map that reflects the Services at the last sync, `ServiceMap.Update`
  gives the map that reflects their latest versions.
-/

namespace Kubernetes.Proxy

variable {α : Type}

/-- A key's value in a `ServiceMap` that may be `nil`. -/
def lookupIn (m : Option (PortMap α)) (k : ServicePortName) : Option (ServicePortInfo α) :=
  m.bind (·.lookup k)

@[simp] theorem lookupIn_none (k : ServicePortName) :
    lookupIn (none : Option (PortMap α)) k = none := rfl

@[simp] theorem lookupIn_some (m : PortMap α) (k : ServicePortName) :
    lookupIn (some m) k = m.lookup k := rfl

/-- The name of a Service, which its change is recorded under. -/
def Service.namespacedName (service : Service) : NamespacedName :=
  ⟨service.«namespace», service.name⟩

/-! ## The ports of a Service -/

section Translate

variable (makeServiceInfo : ServicePortSpec → Service → ServicePortInfo α) (ipFamily : IPFamily)

theorem isSome_lookup_foldl_insert {nn : NamespacedName} {f : ServicePortSpec → ServicePortInfo α}
    {ports : List ServicePortSpec} {m : PortMap α} {k : ServicePortName}
    (h : ((ports.foldl (fun serviceMap servicePort =>
      serviceMap.insert ⟨nn, servicePort.name, servicePort.protocol⟩ (f servicePort)) m).lookup
        k).isSome) :
    k.namespacedName = nn ∨ (m.lookup k).isSome := by
  induction ports generalizing m with
  | nil => exact .inr h
  | cons port ports ih =>
    rcases ih h with h | h
    · exact .inl h
    · by_cases hk : k = ⟨nn, port.name, port.protocol⟩
      · exact .inl (by rw [hk])
      · rw [AList.lookup_insert_ne hk] at h
        exact .inr h

/-- Every port of a Service's map is named after the Service. -/
theorem namespacedName_of_isSome_lookupIn {service : Option Service} {k : ServicePortName}
    (h : (lookupIn (serviceToServiceMap makeServiceInfo ipFamily service) k).isSome) :
    ∃ s, service = some s ∧ k.namespacedName = s.namespacedName := by
  cases service with
  | none => simp [serviceToServiceMap] at h
  | some s =>
    refine ⟨s, rfl, ?_⟩
    by_cases hskip : shouldSkipService s
    · simp [serviceToServiceMap, hskip] at h
    by_cases hip : getClusterIPByFamily ipFamily s = ""
    · simp [serviceToServiceMap, hskip, hip] at h
    simp only [serviceToServiceMap, hskip, hip, Bool.false_eq_true, if_false, lookupIn_some] at h
    rcases isSome_lookup_foldl_insert h with h | h
    · exact h
    · simp at h

end Translate

/-! ## What one record does to the map -/

theorem lookup_merge (sm : PortMap α) (other : Option (PortMap α)) (k : ServicePortName) :
    (merge sm other).lookup k = (lookupIn other k).or (sm.lookup k) := by
  cases other with
  | none => rfl
  | some other => exact Go.lookup_union other sm k

theorem lookupIn_filter (previous current : Option (PortMap α)) (k : ServicePortName) :
    lookupIn (filter previous current) k =
      if (lookupIn current k).isSome then none else lookupIn previous k := by
  cases previous with
  | none => simp [filter]
  | some previous =>
    simp only [filter, Option.map_some, lookupIn_some]
    rw [Go.lookup_foldl_erase (fun k => (current.bind fun x => x.lookup k).isSome)]
    by_cases hk : k ∈ previous.keys
    · simp only [hk, true_and]
      rfl
    · have hnone : previous.lookup k = none := AList.lookup_eq_none.mpr (mt AList.mem_keys.mp hk)
      simp [hk, hnone]

theorem lookup_unmergePort (smStale : PortMap α × List String) (k' k : ServicePortName) :
    (unmergePort smStale k').1.lookup k = if k = k' then none else smStale.1.lookup k := by
  unfold unmergePort
  split
  · by_cases hk : k = k'
    · subst hk
      simp
    · simp [hk, AList.lookup_erase_ne hk]
  · rename_i hnone
    by_cases hk : k = k'
    · subst hk
      simpa using hnone
    · simp [hk]

theorem lookup_unmerge (sm : PortMap α) (other : Option (PortMap α)) (stale : List String)
    (k : ServicePortName) :
    (unmerge sm other stale).1.lookup k =
      if (lookupIn other k).isSome then none else sm.lookup k := by
  have hloop : ∀ (ks : List ServicePortName) (acc : PortMap α × List String),
      (ks.foldl unmergePort acc).1.lookup k = if k ∈ ks then none else acc.1.lookup k := by
    intro ks
    induction ks with
    | nil => simp
    | cons k' ks ih =>
      intro acc
      rw [List.foldl_cons, ih, lookup_unmergePort]
      by_cases hk : k = k' <;> simp [hk]
  cases other with
  | none => simp [unmerge]
  | some other =>
    have hmem : (other.lookup k).isSome ↔ k ∈ other.keys :=
      AList.lookup_isSome.trans AList.mem_keys
    simp only [unmerge, Option.map_some, Option.getD_some, hloop, lookupIn_some]
    by_cases hk : k ∈ other.keys
    · simp [hk, hmem.mpr hk]
    · simp [hk, mt hmem.mp hk]

/-- Applying a record: a key of the current map takes its value there, a key only the previous
map has is deleted, and the others are left. -/
theorem lookup_applyChange (smStale : PortMap α × List String) (change : ServiceChange α)
    (k : ServicePortName) :
    (applyChange smStale change).1.lookup k =
      if (lookupIn change.current k).isSome then lookupIn change.current k
      else if (lookupIn change.previous k).isSome then none
      else smStale.1.lookup k := by
  rw [applyChange, lookup_unmerge, lookupIn_filter, lookup_merge]
  cases hcur : lookupIn change.current k <;> simp

/-- `reflect.DeepEqual` maps have the same entries. -/
theorem lookupIn_eq_of_deepEqual [DecidableEq α] {a b : Option (PortMap α)}
    (h : deepEqual a b = true) (k : ServicePortName) : lookupIn a k = lookupIn b k := by
  match a, b, h with
  | none, none, _ => rfl
  | some a, some b, h =>
    simp only [deepEqual, Bool.and_eq_true, beq_iff_eq, List.all_eq_true] at h
    exact Go.lookup_eq_of_length_keys_eq h.1 h.2 k

/-! ## The tracker over a history of events -/

section Tracker

variable [DecidableEq α] (makeServiceInfo : ServicePortSpec → Service → ServicePortInfo α)
  (ipFamily : IPFamily)

/-- Each Service is stored under its own name. -/
def NamesMatch (services : NamespacedName → Option Service) : Prop :=
  ∀ n s, services n = some s → s.namespacedName = n

/-- An event `(previous, current)` follows the Services when `previous` is the latest version of
the Service it is about, `nil` when it creates it. -/
def Follows (services : NamespacedName → Option Service) (previous current : Option Service) :
    Prop :=
  ∀ s, (current.orElse fun _ => previous) = some s → services s.namespacedName = previous

/-- The Services after an event: its `current` version, `none` when it deletes the Service. -/
def next (services : NamespacedName → Option Service) (previous current : Option Service) :
    NamespacedName → Option Service :=
  match current.orElse fun _ => previous with
  | none => services
  | some s => Function.update services s.namespacedName current

/-- A history in which each event follows the Services as the events before it left them. -/
def Consistent :
    (NamespacedName → Option Service) → List (Option Service × Option Service) → Prop
  | _, [] => True
  | services, e :: events => Follows services e.1 e.2 ∧ Consistent (next services e.1 e.2) events

/-- The latest version of every Service after a history. -/
def latest (services : NamespacedName → Option Service)
    (events : List (Option Service × Option Service)) : NamespacedName → Option Service :=
  events.foldl (fun services e => next services e.1 e.2) services

/-- `ServiceChangeTracker.Update` called on each event in turn. -/
def ServiceChangeTracker.run (sct : ServiceChangeTracker α)
    (events : List (Option Service × Option Service)) : ServiceChangeTracker α :=
  events.foldl (fun sct e => (sct.update makeServiceInfo ipFamily e.1 e.2).1) sct

/-- A map reflects the Services when each of its keys has the value the translation of the
Service it names gives it. -/
def Reflects (sm : PortMap α) (services : NamespacedName → Option Service) : Prop :=
  ∀ k, sm.lookup k =
    lookupIn (serviceToServiceMap makeServiceInfo ipFamily (services k.namespacedName)) k

/-- What the record of the Service `n` holds: the map of its version at the last sync, up to
entries, and the map of its latest version. -/
def RecordOf (synced services : NamespacedName → Option Service) (n : NamespacedName)
    (change : ServiceChange α) : Prop :=
  (∀ k, lookupIn change.previous k =
    lookupIn (serviceToServiceMap makeServiceInfo ipFamily (synced n)) k) ∧
  change.current = serviceToServiceMap makeServiceInfo ipFamily (services n)

/-- The tracker between two syncs, `synced` the Services at the last one. -/
structure TrackerInv (synced services : NamespacedName → Option Service)
    (sct : ServiceChangeTracker α) : Prop where
  recorded : ∀ n change, sct.items.lookup n = some change →
    RecordOf makeServiceInfo ipFamily synced services n change
  unrecorded : ∀ n, sct.items.lookup n = none → ∀ k,
    lookupIn (serviceToServiceMap makeServiceInfo ipFamily (synced n)) k =
      lookupIn (serviceToServiceMap makeServiceInfo ipFamily (services n)) k

omit [DecidableEq α] in
theorem trackerInv_empty (synced : NamespacedName → Option Service) :
    TrackerInv makeServiceInfo ipFamily synced synced (.empty α) where
  recorded n change h := by simp [ServiceChangeTracker.empty] at h
  unrecorded _ _ _ := rfl

theorem next_of_none {services : NamespacedName → Option Service}
    {previous current : Option Service} (hs : (current.orElse fun _ => previous) = none) :
    next services previous current = services := by
  simp only [next, hs]

theorem next_of_some {services : NamespacedName → Option Service}
    {previous current : Option Service} {s : Service}
    (hs : (current.orElse fun _ => previous) = some s) :
    next services previous current = Function.update services s.namespacedName current := by
  simp only [next, hs]

theorem namesMatch_next {services : NamespacedName → Option Service}
    (hnames : NamesMatch services) (previous current : Option Service) :
    NamesMatch (next services previous current) := by
  rcases hs : (current.orElse fun _ => previous) with _ | s
  · rwa [next_of_none hs]
  · rw [next_of_some hs]
    intro n c hc
    by_cases hn : n = s.namespacedName
    · subst hn
      rw [Function.update_self] at hc
      cases current with
      | none => simp at hc
      | some c' =>
        simp only [Option.orElse_some, Option.some.injEq] at hs hc
        rw [← hc, hs]
    · rw [Function.update_of_ne hn] at hc
      exact hnames n c hc

theorem ServiceChangeTracker.update_of_none {sct : ServiceChangeTracker α}
    {previous current : Option Service} (hs : (current.orElse fun _ => previous) = none) :
    (sct.update makeServiceInfo ipFamily previous current).1 = sct := by
  simp only [ServiceChangeTracker.update, hs]

/-- What `Update` does on an event about the Service `s`: the change it records has the previous
map recorded before, or else the translation of `previous`, and the translation of `current`; it
drops the record when the two are deeply equal, and leaves the other Services' records. -/
theorem ServiceChangeTracker.update_cases (sct : ServiceChangeTracker α)
    {previous current : Option Service} {s : Service}
    (hs : (current.orElse fun _ => previous) = some s) :
    ∃ prev, (sct.items.lookup s.namespacedName = none ∧
        prev = serviceToServiceMap makeServiceInfo ipFamily previous ∨
      ∃ change, sct.items.lookup s.namespacedName = some change ∧ prev = change.previous) ∧
    (∀ n, n ≠ s.namespacedName →
      (sct.update makeServiceInfo ipFamily previous current).1.items.lookup n =
        sct.items.lookup n) ∧
    (sct.update makeServiceInfo ipFamily previous current).1.items.lookup s.namespacedName =
      if deepEqual prev (serviceToServiceMap makeServiceInfo ipFamily current) then none
      else some ⟨prev, serviceToServiceMap makeServiceInfo ipFamily current⟩ := by
  have hframe : ∀ n, n ≠ s.namespacedName →
      (sct.update makeServiceInfo ipFamily previous current).1.items.lookup n =
        sct.items.lookup n := by
    intro n hn
    simp only [ServiceChangeTracker.update, hs]
    split_ifs
    · exact AList.lookup_erase_ne hn
    · exact AList.lookup_insert_ne hn
  cases hlook : sct.items.lookup s.namespacedName with
  | none =>
    refine ⟨_, .inl ⟨rfl, rfl⟩, hframe, ?_⟩
    simp only [Service.namespacedName] at hlook ⊢
    simp only [ServiceChangeTracker.update, hs, hlook]
    split_ifs <;> simp
  | some change =>
    refine ⟨_, .inr ⟨change, rfl, rfl⟩, hframe, ?_⟩
    simp only [Service.namespacedName] at hlook ⊢
    simp only [ServiceChangeTracker.update, hs, hlook]
    split_ifs <;> simp

/-- One event keeps the invariant: the record of its Service keeps the previous map it had, or
takes the map of `previous`, the Service's latest version, which translates as at the last sync
since the Service had no record; its current map is the event's `current`. -/
theorem trackerInv_update {synced services : NamespacedName → Option Service}
    {sct : ServiceChangeTracker α} (hinv : TrackerInv makeServiceInfo ipFamily synced services sct)
    {previous current : Option Service} (hfollows : Follows services previous current) :
    TrackerInv makeServiceInfo ipFamily synced (next services previous current)
      (sct.update makeServiceInfo ipFamily previous current).1 := by
  rcases hs : (current.orElse fun _ => previous) with _ | s
  · rw [next_of_none hs, ServiceChangeTracker.update_of_none makeServiceInfo ipFamily hs]
    exact hinv
  obtain ⟨prev, hprev, hframe, hself⟩ :=
    ServiceChangeTracker.update_cases makeServiceInfo ipFamily sct hs
  have hfirst : ∀ k, lookupIn prev k =
      lookupIn (serviceToServiceMap makeServiceInfo ipFamily (synced s.namespacedName)) k := by
    intro k
    rcases hprev with ⟨hlook, rfl⟩ | ⟨change, hlook, rfl⟩
    · rw [← hfollows s hs]
      exact (hinv.unrecorded _ hlook k).symm
    · exact (hinv.recorded _ _ hlook).1 k
  rw [next_of_some hs]
  constructor
  · intro n change hn
    by_cases hne : n = s.namespacedName
    · subst hne
      rw [hself] at hn
      split at hn
      · cases hn
      · cases hn
        exact ⟨hfirst, by simp⟩
    · obtain ⟨h₁, h₂⟩ := hinv.recorded n change (by rwa [hframe n hne] at hn)
      exact ⟨h₁, by rw [h₂, Function.update_of_ne hne]⟩
  · intro n hn k
    by_cases hne : n = s.namespacedName
    · subst hne
      rw [hself] at hn
      split at hn
      · rename_i hdeep
        rw [Function.update_self, ← hfirst k]
        exact lookupIn_eq_of_deepEqual hdeep k
      · cases hn
    · rw [Function.update_of_ne hne]
      exact hinv.unrecorded n (by rwa [hframe n hne] at hn) k

/-- Every consistent history keeps the invariant, and each Service under its own name. -/
theorem trackerInv_run {synced services : NamespacedName → Option Service}
    {sct : ServiceChangeTracker α} (hinv : TrackerInv makeServiceInfo ipFamily synced services sct)
    (hnames : NamesMatch services) {events : List (Option Service × Option Service)}
    (hcons : Consistent services events) :
    TrackerInv makeServiceInfo ipFamily synced (latest services events)
        (sct.run makeServiceInfo ipFamily events) ∧
      NamesMatch (latest services events) := by
  induction events generalizing services sct with
  | nil => exact ⟨hinv, hnames⟩
  | cons e events ih =>
    exact ih (trackerInv_update makeServiceInfo ipFamily hinv hcons.1)
      (namesMatch_next hnames e.1 e.2) hcons.2

end Tracker

/-! ## Applying the records -/

section Apply

variable [DecidableEq α] (makeServiceInfo : ServicePortSpec → Service → ServicePortInfo α)
  (ipFamily : IPFamily) {synced services : NamespacedName → Option Service}

omit [DecidableEq α] in
/-- A Service's map has no key of another Service. -/
theorem lookupIn_eq_none_of_ne (hnames : NamesMatch services) {n : NamespacedName}
    {k : ServicePortName} (hk : k.namespacedName ≠ n) :
    lookupIn (serviceToServiceMap makeServiceInfo ipFamily (services n)) k = none := by
  cases h : lookupIn (serviceToServiceMap makeServiceInfo ipFamily (services n)) k with
  | none => rfl
  | some v =>
    have hsome : (lookupIn (serviceToServiceMap makeServiceInfo ipFamily (services n)) k).isSome := by
      rw [h]
      rfl
    obtain ⟨s, hs, hkn⟩ := namespacedName_of_isSome_lookupIn makeServiceInfo ipFamily hsome
    exact absurd (hkn.trans (hnames n s hs)) hk

omit [DecidableEq α] in
/-- A record leaves the keys of the other Services. -/
theorem lookup_applyChange_of_ne (hsynced : NamesMatch synced) (hnames : NamesMatch services)
    {n : NamespacedName} {change : ServiceChange α}
    (hrec : RecordOf makeServiceInfo ipFamily synced services n change)
    (smStale : PortMap α × List String) {k : ServicePortName} (hk : k.namespacedName ≠ n) :
    (applyChange smStale change).1.lookup k = smStale.1.lookup k := by
  rw [lookup_applyChange, hrec.1 k, hrec.2, lookupIn_eq_none_of_ne makeServiceInfo ipFamily hsynced hk,
    lookupIn_eq_none_of_ne makeServiceInfo ipFamily hnames hk]
  simp

omit [DecidableEq α] in
/-- A record sets a key of its Service to its latest value, from the value of the last sync or
that one already. -/
theorem lookup_applyChange_self {n : NamespacedName} {change : ServiceChange α}
    (hrec : RecordOf makeServiceInfo ipFamily synced services n change)
    {smStale : PortMap α × List String} {k : ServicePortName}
    (hsm : smStale.1.lookup k = lookupIn (serviceToServiceMap makeServiceInfo ipFamily (synced n)) k ∨
      smStale.1.lookup k = lookupIn (serviceToServiceMap makeServiceInfo ipFamily (services n)) k) :
    (applyChange smStale change).1.lookup k =
      lookupIn (serviceToServiceMap makeServiceInfo ipFamily (services n)) k := by
  rw [lookup_applyChange, hrec.1 k, hrec.2]
  cases hcur : lookupIn (serviceToServiceMap makeServiceInfo ipFamily (services n)) k with
  | some v => simp
  | none =>
    cases hprev : lookupIn (serviceToServiceMap makeServiceInfo ipFamily (synced n)) k with
    | some v => simp
    | none =>
      rw [hcur, hprev] at hsm
      simpa using hsm.elim id id

omit [DecidableEq α] in
/-- The loop of `apply` over records, in any order: each key of a recorded Service takes its latest
value, and the other keys are left. -/
theorem lookup_foldl_applyChange (hsynced : NamesMatch synced) (hnames : NamesMatch services)
    (entries : List (Σ _ : NamespacedName, ServiceChange α))
    (hrec : ∀ e ∈ entries, RecordOf makeServiceInfo ipFamily synced services e.1 e.2)
    (acc : PortMap α × List String) (k : ServicePortName)
    (hacc : acc.1.lookup k =
        lookupIn (serviceToServiceMap makeServiceInfo ipFamily (synced k.namespacedName)) k ∨
      acc.1.lookup k =
        lookupIn (serviceToServiceMap makeServiceInfo ipFamily (services k.namespacedName)) k) :
    ((entries.map Sigma.snd).foldl applyChange acc).1.lookup k =
      if k.namespacedName ∈ entries.keys then
        lookupIn (serviceToServiceMap makeServiceInfo ipFamily (services k.namespacedName)) k
      else acc.1.lookup k := by
  induction entries generalizing acc with
  | nil => simp
  | cons e entries ih =>
    obtain ⟨n, change⟩ := e
    have hrec' : ∀ e ∈ entries, RecordOf makeServiceInfo ipFamily synced services e.1 e.2 :=
      fun e he => hrec e (List.mem_cons_of_mem _ he)
    rw [List.map_cons, List.foldl_cons, List.keys_cons]
    by_cases hk : k.namespacedName = n
    · -- the record of `k`'s Service sets it, and a later one of that Service sets it again
      subst hk
      have hset := lookup_applyChange_self makeServiceInfo ipFamily (hrec _ List.mem_cons_self) hacc
      rw [ih hrec' _ (.inr hset), hset]
      simp
    · have hkeep := lookup_applyChange_of_ne makeServiceInfo ipFamily hsynced hnames
        (hrec _ List.mem_cons_self) acc hk
      rw [ih hrec' _ (hkeep ▸ hacc), hkeep]
      simp only [List.mem_cons, hk, false_or]

omit [DecidableEq α] in
/-- `ServiceMap.Update` over the tracker's records, visited in any order: from a map that reflects
the Services at the last sync, the map that reflects their latest versions. -/
theorem update_reflects {sm : PortMap α} (hsm : Reflects makeServiceInfo ipFamily sm synced)
    (hsynced : NamesMatch synced) (hnames : NamesMatch services) {sct : ServiceChangeTracker α}
    (hinv : TrackerInv makeServiceInfo ipFamily synced services sct)
    {entries : List (Σ _ : NamespacedName, ServiceChange α)}
    (horder : entries.Perm sct.items.entries) :
    Reflects makeServiceInfo ipFamily (update sm (entries.map Sigma.snd)).1 services := by
  intro k
  have hrec : ∀ e ∈ entries, RecordOf makeServiceInfo ipFamily synced services e.1 e.2 :=
    fun e he => hinv.recorded e.1 e.2 (AList.mem_lookup_iff.mpr (horder.subset he))
  have hupd : (update sm (entries.map Sigma.snd)).1 =
      ((entries.map Sigma.snd).foldl applyChange (sm, [])).1 := rfl
  rw [hupd, lookup_foldl_applyChange makeServiceInfo ipFamily hsynced hnames entries hrec _ k
    (.inl (hsm k))]
  split_ifs with hk
  · rfl
  · -- a Service without a record translates as at the last sync
    have hkeys : k.namespacedName ∉ sct.items := fun hmem =>
      hk ((horder.map Sigma.fst).mem_iff.mpr (AList.mem_keys.mp hmem))
    rw [hsm k]
    exact hinv.unrecorded _ (AList.lookup_eq_none.mpr hkeys) k

/-- The map a sync after every event gives. -/
def updateEach (sm : PortMap α) (events : List (Option Service × Option Service)) : PortMap α :=
  events.foldl (fun sm e => (update sm
    (((ServiceChangeTracker.empty α).update makeServiceInfo ipFamily e.1 e.2).1.items.entries.map
      Sigma.snd)).1) sm

theorem reflects_updateEach {sm : PortMap α} (hsm : Reflects makeServiceInfo ipFamily sm services)
    (hnames : NamesMatch services) {events : List (Option Service × Option Service)}
    (hcons : Consistent services events) :
    Reflects makeServiceInfo ipFamily (updateEach makeServiceInfo ipFamily sm events)
      (latest services events) := by
  induction events generalizing sm services with
  | nil => exact hsm
  | cons e events ih =>
    have hnext := namesMatch_next hnames e.1 e.2
    exact ih (update_reflects makeServiceInfo ipFamily hsm hnames hnext
      (trackerInv_update makeServiceInfo ipFamily (trackerInv_empty makeServiceInfo ipFamily services)
        hcons.1) (List.Perm.refl _)) hnext hcons.2

/-- One `ServiceMap.Update` after a consistent history of events, the records visited in any
order, gives the map of the latest version of every Service, the one a sync after every event
gives, and empties the tracker. -/
theorem update_run_reflects_latest {sm : PortMap α}
    (hsm : Reflects makeServiceInfo ipFamily sm services) (hnames : NamesMatch services)
    {events : List (Option Service × Option Service)} (hcons : Consistent services events)
    {entries : List (Σ _ : NamespacedName, ServiceChange α)}
    (horder : entries.Perm
      ((ServiceChangeTracker.empty α).run makeServiceInfo ipFamily events).items.entries) :
    Reflects makeServiceInfo ipFamily (update sm (entries.map Sigma.snd)).1
        (latest services events) ∧
      (∀ k, (update sm (entries.map Sigma.snd)).1.lookup k =
        (updateEach makeServiceInfo ipFamily sm events).lookup k) ∧
      (update sm (entries.map Sigma.snd)).2.2 = .empty α := by
  obtain ⟨hinv, hlatest⟩ := trackerInv_run makeServiceInfo ipFamily
    (trackerInv_empty makeServiceInfo ipFamily services) hnames hcons
  have hbatch := update_reflects makeServiceInfo ipFamily hsm hnames hlatest hinv horder
  refine ⟨hbatch, fun k => ?_, rfl⟩
  rw [hbatch k, reflects_updateEach makeServiceInfo ipFamily hsm hnames hcons k]

/-- The information of a port: its Service's cluster IP and its protocol. -/
def clusterIPInfo (port : ServicePortSpec) (service : Service) : ServicePortInfo Unit :=
  ⟨service.clusterIP, port.protocol, 0, ()⟩

/-- The Service `default/web` at an IPv4 cluster IP, with one port. -/
def webService (port : ServicePortSpec) : Service :=
  ⟨"default", "web", .clusterIP, "10.0.0.1", ["10.0.0.1"], [.ipv4], false, [port]⟩

/-- `default/web` is created with an HTTP port, then moved to HTTPS. -/
def webEvents : List (Option Service × Option Service) :=
  [(none, some (webService ⟨"http", .tcp, 80⟩)),
    (some (webService ⟨"http", .tcp, 80⟩), some (webService ⟨"https", .tcp, 443⟩))]

theorem update_run_reflects_latest_web :
    Reflects clusterIPInfo .ipv4 ∅ (fun _ => none) ∧ NamesMatch (fun _ => none) ∧
      Consistent (fun _ => none) webEvents ∧
      ((ServiceChangeTracker.empty Unit).run clusterIPInfo .ipv4 webEvents).items.entries.Perm
        ((ServiceChangeTracker.empty Unit).run clusterIPInfo .ipv4 webEvents).items.entries ∧
      (Reflects clusterIPInfo .ipv4 (update ∅ (((ServiceChangeTracker.empty Unit).run clusterIPInfo
          .ipv4 webEvents).items.entries.map Sigma.snd)).1 (latest (fun _ => none) webEvents) ∧
        (∀ k, (update ∅ (((ServiceChangeTracker.empty Unit).run clusterIPInfo .ipv4
            webEvents).items.entries.map Sigma.snd)).1.lookup k =
          (updateEach clusterIPInfo .ipv4 ∅ webEvents).lookup k) ∧
        (update ∅ (((ServiceChangeTracker.empty Unit).run clusterIPInfo .ipv4
          webEvents).items.entries.map Sigma.snd)).2.2 = .empty Unit) := by
  have hsm : Reflects clusterIPInfo .ipv4 ∅ (fun _ => none) := fun _ => rfl
  have hnames : NamesMatch (fun _ => none) := fun _ _ h => by cases h
  have hcons : Consistent (fun _ => none) webEvents := by
    refine ⟨fun _ _ => rfl, fun s hs => ?_, trivial⟩
    simp only [Option.orElse_some, Option.some.injEq] at hs
    subst hs
    rw [next_of_some rfl]
    exact Function.update_self _ _ _
  exact ⟨hsm, hnames, hcons, List.Perm.refl _,
    update_run_reflects_latest clusterIPInfo .ipv4 hsm hnames hcons (List.Perm.refl _)⟩

end Apply

end Kubernetes.Proxy
