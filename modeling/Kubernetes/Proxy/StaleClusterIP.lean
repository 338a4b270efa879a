import Mathlib
import Kubernetes.Proxy.ServiceChanges

/-!
# The stale UDP cluster IPs of a `ServiceMap.Update`

`UpdateServiceMapResult.UDPStaleClusterIP` "holds stale (no longer assigned to a Service) Service
IPs that had UDP ports", so that the proxier clears their conntrack entries. `apply` collects them
in `unmerge`: from each record's previous map it first filters out the ports the current map still
has, and a UDP port left there, and so deleted from the map, reports its cluster IP.

* `mem_udpStaleClusterIP_update`: after a consistent history, every UDP port of the synced map
  whose name the latest version of its Service no longer has reports its cluster IP, whatever the
  order of the records.
* The ports are compared by name only. A Service deleted and created again in one batch with
  another cluster IP keeps its port names, so `filter` takes them out of the previous map and the
  old cluster IP is not reported, although no port serves it any more
  (`update_misses_recreated_cluster_ip`).
-/

namespace Kubernetes.Proxy

variable {α : Type}

/-! ## What `unmerge` reports -/

theorem mem_unmergePort_of_mem {x : String} (smStale : PortMap α × List String)
    (k : ServicePortName) (hx : x ∈ smStale.2) : x ∈ (unmergePort smStale k).2 := by
  unfold unmergePort
  split
  · split
    · exact List.mem_insert_of_mem hx
    · exact hx
  · exact hx

theorem mem_foldl_unmergePort_of_mem {x : String} (ks : List ServicePortName)
    (acc : PortMap α × List String) (hx : x ∈ acc.2) : x ∈ (ks.foldl unmergePort acc).2 := by
  induction ks generalizing acc with
  | nil => exact hx
  | cons k ks ih => exact ih _ (mem_unmergePort_of_mem acc k hx)

/-- The loop of `unmerge` reports a UDP port of the map whose name it visits: before its turn the
other names leave it in the map. -/
theorem mem_foldl_unmergePort {k : ServicePortName} {info : ServicePortInfo α}
    (hudp : info.protocol = .udp) (ks : List ServicePortName) (hnodup : ks.Nodup) (hk : k ∈ ks)
    (acc : PortMap α × List String) (hacc : acc.1.lookup k = some info) :
    info.clusterIP ∈ (ks.foldl unmergePort acc).2 := by
  induction ks generalizing acc with
  | nil => cases hk
  | cons k' ks ih =>
    rw [List.foldl_cons]
    by_cases hkk : k = k'
    · -- its turn: deleted and reported, and kept by the rest of the loop
      subst hkk
      apply mem_foldl_unmergePort_of_mem
      simp [unmergePort, hacc, hudp]
    · have hk' : k ∈ ks := (List.mem_cons.mp hk).resolve_left hkk
      refine ih (List.nodup_cons.mp hnodup).2 hk' _ ?_
      rw [lookup_unmergePort, if_neg hkk, hacc]

theorem mem_applyChange_of_mem {x : String} (smStale : PortMap α × List String)
    (change : ServiceChange α) (hx : x ∈ smStale.2) : x ∈ (applyChange smStale change).2 :=
  mem_foldl_unmergePort_of_mem _ _ hx

theorem mem_foldl_applyChange_of_mem {x : String} (changes : List (ServiceChange α))
    (acc : PortMap α × List String) (hx : x ∈ acc.2) : x ∈ (changes.foldl applyChange acc).2 := by
  induction changes generalizing acc with
  | nil => exact hx
  | cons change changes ih => exact ih _ (mem_applyChange_of_mem acc change hx)

/-- A record reports a UDP port of the map that its previous map has and its current map has not. -/
theorem mem_applyChange {k : ServicePortName} {info : ServicePortInfo α}
    (hudp : info.protocol = .udp) (smStale : PortMap α × List String) (change : ServiceChange α)
    (hprev : (lookupIn change.previous k).isSome) (hcur : lookupIn change.current k = none)
    (hsm : smStale.1.lookup k = some info) : info.clusterIP ∈ (applyChange smStale change).2 := by
  have hfilter : (lookupIn (filter change.previous change.current) k).isSome := by
    rw [lookupIn_filter, hcur, if_neg (by simp)]
    exact hprev
  obtain ⟨filtered, hfiltered⟩ := Option.isSome_iff_exists.mp
    (show (filter change.previous change.current).isSome by
      cases h : filter change.previous change.current with
      | none => rw [h] at hfilter; simp at hfilter
      | some _ => rfl)
  rw [hfiltered, lookupIn_some] at hfilter
  have hmerge : (merge smStale.1 change.current).lookup k = some info := by
    rw [lookup_merge, hcur, Option.none_or, hsm]
  rw [applyChange, unmerge, hfiltered, Option.map_some, Option.getD_some]
  exact mem_foldl_unmergePort hudp _ filtered.nodupKeys
    (AList.mem_keys.mp (AList.lookup_isSome.mp hfilter)) _ hmerge

/-! ## Over a consistent history -/

section Update

variable (makeServiceInfo : ServicePortSpec → Service → ServicePortInfo α)
  (ipFamily : IPFamily) {synced services : NamespacedName → Option Service}

/-- **A port name that a batch removes reports its cluster IP**: from a map that reflects the
Services at the last sync, after a consistent history of events, every UDP port of the map whose
name the latest version of its Service does not have reports its cluster IP in
`UDPStaleClusterIP`, whatever order `apply` visits the records in. -/
theorem mem_udpStaleClusterIP_update {sm : PortMap α}
    (hsm : Reflects makeServiceInfo ipFamily sm synced) (hsynced : NamesMatch synced)
    (hnames : NamesMatch services) {sct : ServiceChangeTracker α}
    (hinv : TrackerInv makeServiceInfo ipFamily synced services sct)
    {entries : List (Σ _ : NamespacedName, ServiceChange α)}
    (horder : entries.Perm sct.items.entries) {k : ServicePortName} {info : ServicePortInfo α}
    (hk : sm.lookup k = some info) (hudp : info.protocol = .udp)
    (hgone : lookupIn (serviceToServiceMap makeServiceInfo ipFamily
      (services k.namespacedName)) k = none) :
    info.clusterIP ∈ (update sm (entries.map Sigma.snd)).2.1.udpStaleClusterIP := by
  have hsynced_k := (hsm k).symm.trans hk
  obtain ⟨change, hchange⟩ : ∃ change, sct.items.lookup k.namespacedName = some change := by
    cases hlookup : sct.items.lookup k.namespacedName with
    | some change => exact ⟨change, rfl⟩
    | none =>
      have := hinv.unrecorded _ hlookup k
      rw [hsynced_k, hgone] at this
      cases this
  have hrec := hinv.recorded _ _ hchange
  have hmem : (⟨k.namespacedName, change⟩ : Σ _ : NamespacedName, ServiceChange α) ∈ entries :=
    horder.symm.subset (AList.mem_lookup_iff.mp hchange)
  obtain ⟨pre, post, rfl⟩ := List.append_of_mem hmem
  have hnodup : (pre ++ ⟨k.namespacedName, change⟩ :: post).keys.Nodup :=
    (List.perm_nodupKeys horder).mpr sct.items.nodupKeys
  have hpre : k.namespacedName ∉ pre.keys := by
    rw [List.keys_append, List.keys_cons] at hnodup
    exact fun h => List.disjoint_of_nodup_append hnodup h List.mem_cons_self
  have hrecpre : ∀ e ∈ pre, RecordOf makeServiceInfo ipFamily synced services e.1 e.2 :=
    fun e he => hinv.recorded e.1 e.2
      (AList.mem_lookup_iff.mpr (horder.subset (List.mem_append_left _ he)))
  have hbefore := lookup_foldl_applyChange makeServiceInfo ipFamily hsynced hnames pre hrecpre
    (sm, []) k (.inl (hsm k))
  rw [if_neg hpre] at hbefore
  have hupdate : (update sm ((pre ++ ⟨k.namespacedName, change⟩ :: post).map
      Sigma.snd)).2.1.udpStaleClusterIP =
      (((pre ++ ⟨k.namespacedName, change⟩ :: post).map Sigma.snd).foldl applyChange (sm, [])).2 :=
    rfl
  rw [hupdate, List.map_append, List.foldl_append, List.map_cons, List.foldl_cons]
  apply mem_foldl_applyChange_of_mem
  refine mem_applyChange hudp _ change ?_ ?_ (hbefore.trans hk)
  · rw [hrec.1 k, hsynced_k]
    rfl
  · rw [hrec.2]
    exact hgone

end Update

/-! ## A Service created again at another cluster IP -/

/-- The Service `kube-system/dns` at the cluster IP `ip`, with one UDP port `dns`. -/
def dnsService (ip : String) : Service :=
  ⟨"kube-system", "dns", .clusterIP, ip, [ip], [.ipv4], false, [⟨"dns", .udp, 53⟩]⟩

/-- The Services at the last sync: `kube-system/dns` at `10.0.0.10`. -/
def dnsSynced : NamespacedName → Option Service :=
  Function.update (fun _ => none) ⟨"kube-system", "dns"⟩ (some (dnsService "10.0.0.10"))

/-- `kube-system/dns` deleted, then created again at `10.0.0.11`, within one batch. -/
def dnsRecreated : List (Option Service × Option Service) :=
  [(some (dnsService "10.0.0.10"), none), (none, some (dnsService "10.0.0.11"))]

/-- **A cluster IP given up inside a batch is not reported**: the map of the Service at
`10.0.0.10` is updated, after its deletion and creation at `10.0.0.11`, to the one port at
`10.0.0.11`, and `UDPStaleClusterIP` is empty. -/
theorem update_misses_recreated_cluster_ip :
    Reflects clusterIPInfo .ipv4
        ((serviceToServiceMap clusterIPInfo .ipv4 (some (dnsService "10.0.0.10"))).getD ∅)
        dnsSynced ∧
      Consistent dnsSynced dnsRecreated ∧
      (update ((serviceToServiceMap clusterIPInfo .ipv4 (some (dnsService "10.0.0.10"))).getD ∅)
        (((ServiceChangeTracker.empty Unit).run clusterIPInfo .ipv4 dnsRecreated).items.entries.map
          Sigma.snd)).1.entries =
        [⟨⟨⟨"kube-system", "dns"⟩, "dns", .udp⟩, ⟨"10.0.0.11", .udp, 0, ()⟩⟩] ∧
      (update ((serviceToServiceMap clusterIPInfo .ipv4 (some (dnsService "10.0.0.10"))).getD ∅)
        (((ServiceChangeTracker.empty Unit).run clusterIPInfo .ipv4 dnsRecreated).items.entries.map
          Sigma.snd)).2.1.udpStaleClusterIP = [] := by
  have hname : ∀ ip, (dnsService ip).namespacedName = ⟨"kube-system", "dns"⟩ := fun _ => rfl
  refine ⟨fun k => ?_, ⟨fun s hs => ?_, fun s hs => ?_, trivial⟩, rfl, rfl⟩
  · by_cases hk : k.namespacedName = ⟨"kube-system", "dns"⟩
    · rw [dnsSynced, hk, Function.update_self]
      rfl
    · -- the map has the one port of `kube-system/dns`
      have hne : k ≠ ⟨⟨"kube-system", "dns"⟩, "dns", .udp⟩ := fun h => hk (h ▸ rfl)
      rw [dnsSynced, Function.update_of_ne hk]
      exact AList.lookup_insert_ne hne
  · -- the deletion follows the synced version
    simp only [Option.orElse_none, Option.some.injEq] at hs
    subst hs
    rw [hname, dnsSynced, Function.update_self]
  · -- the creation follows the deletion
    simp only [Option.orElse_some, Option.some.injEq] at hs
    subst hs
    rw [next_of_some (s := dnsService "10.0.0.10") rfl, hname, hname, Function.update_self]

end Kubernetes.Proxy
