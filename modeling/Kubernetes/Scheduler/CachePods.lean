import Mathlib
import Kubernetes.Foundations.GoStd
import Kubernetes.Foundations.Reach
import Kubernetes.Foundations.Placement
import Kubernetes.Scheduler.Cache

/-!
# The pods of the scheduler's cache

What the cache promises of its pods, over every run of its calls.

* Every helper that touches the `NodeInfo`s moves pods in one way only: `addPod` appends the pod
  to the `NodeInfo` of its node (`uidsAt_addPod`), and a `removePod` that succeeds takes one pod
  with its key out of the `NodeInfo` of its node (`uidsAt_removePod`). None of them changes
  `podStates` or `assumedPods`.
* `PodInv` is what holds after every run: assumed keys are distinct keys of `podStates`, each
  state is held under its pod's key, each key is held by the `NodeInfo` of a node exactly as often
  as `podStates` puts its pod there (`wantCount`: once on the pod's node, nowhere else), and an
  assumed pod whose binding finished has a deadline. Each call keeps it (`PodInv.assumePod`, ...,
  `PodInv.cleanupAssumedPods`).
* `Reachable` runs the calls from `newSchedulerCache`, with `UpdatePod`'s arguments as the pod
  informer gives them (`UpdateConsistent`): the new pod has the old one's UID, and the old pod is
  on the node the cache has the pod on. A fatal error ends a run. Every reachable cache holds
  `PodInv` (`Reachable.podInv`), and a call other than `RemoveNode` that fails leaves it as it was
  (`Reachable.step_error`).
* On `PodInv` the periodic cleanup never ends the process, and in whatever order it visits the
  assumed keys it expires exactly the pods whose binding finished and whose deadline is past
  (`PodInv.cleanupAssumedPods_any_order`).

The invariant needs `UpdateConsistent`: an `UpdatePod` whose old pod names another node removes
nothing and adds the new pod a second time (`updatePod_duplicates_pod`).
-/
namespace Kubernetes.SchedulerCache

/-! ## Keys and slices -/

theorem getPodKey_eq_ok {pod : Pod} {key : String} :
    getPodKey pod = .ok key ↔ pod.uid.length ≠ 0 ∧ pod.uid = key := by
  unfold getPodKey
  split_ifs with h <;> simp [h]

/-- `removeFromSlice` takes out the first pod with the key, as `eraseP` does, in another order. -/
theorem removeFromSlice_perm (s : List Pod) (k : String) :
    (removeFromSlice s k).Perm (s.eraseP (·.uid == k)) := by
  unfold removeFromSlice
  rw [List.eraseP_eq_eraseIdx]
  split
  · rename_i i last hi hlast
    rw [hi]
    exact Go.dropLast_set_getLast_perm hlast (List.findIdx?_eq_some_iff_getElem.mp hi).1
  · rename_i hnot
    cases hi : s.findIdx? (·.uid == k) with
    | none => rfl
    | some i =>
      cases hl : s.getLast? with
      | none =>
        rw [List.getLast?_eq_none_iff] at hl
        subst hl
        simp at hi
      | some last => exact absurd hl (hnot i last hi)

/-- The UIDs of the pods of the `NodeInfo` of a node; none when the cache has no `NodeInfo` for
it. -/
def uidsAt (nodes : AList (fun _ : String => NodeInfo)) (name : String) : List String :=
  ((nodes.lookup name).map fun n => n.pods.map (·.uid)).getD []

theorem uidsAt_insert (nodes : AList (fun _ : String => NodeInfo)) (name name' : String)
    (n : NodeInfo) : uidsAt (nodes.insert name n) name' =
      if name' = name then n.pods.map (·.uid) else uidsAt nodes name' := by
  unfold uidsAt
  split_ifs with h
  · rw [h, AList.lookup_insert]
    rfl
  · rw [AList.lookup_insert_ne h]

/-- Only a name with a `NodeInfo` holds keys. -/
theorem mem_keys_of_mem_uidsAt {nodes : AList (fun _ : String => NodeInfo)} {name k : String}
    (hk : k ∈ uidsAt nodes name) : name ∈ nodes.keys := by
  unfold uidsAt at hk
  cases hn : nodes.lookup name with
  | none =>
    rw [hn] at hk
    cases hk
  | some n => exact AList.mem_keys.mp (AList.lookup_isSome.mp (by rw [hn]; rfl))

theorem map_uid_removeFromSlice (s : List Pod) (k : String) :
    ((removeFromSlice s k).map (·.uid)).Perm ((s.map (·.uid)).erase k) := by
  rw [List.erase_eq_eraseP', List.eraseP_map]
  exact (removeFromSlice_perm s k).map _

/-! ## What the helpers change -/

namespace NodeInfo

theorem removePod_ok {n n' : NodeInfo} {pod : Pod} {g : ℕ} (h : n.removePod pod g = (n', .ok ())) :
    n'.pods = removeFromSlice n.pods pod.uid ∧ n'.node = n.node ∧ n'.generation = g := by
  unfold removePod at h
  cases hk : getPodKey pod with
  | error => simp [hk] at h
  | ok k =>
    obtain ⟨_, rfl⟩ := getPodKey_eq_ok.mp hk
    simp only [hk] at h
    split_ifs at h <;> simp only [Prod.mk.injEq, reduceCtorEq, and_false, and_true] at h
    all_goals
      subst h
      exact ⟨rfl, rfl, rfl⟩

/-- `RemovePod` finds a pod of the `NodeInfo` by its key. -/
theorem removePod_ok_of_mem {n : NodeInfo} {pod : Pod} (g : ℕ) (hk : getPodKey pod = .ok pod.uid)
    (hmem : pod.uid ∈ n.pods.map (·.uid)) : (n.removePod pod g).2 = .ok () := by
  unfold removePod
  simp only [hk]
  split_ifs <;> simp_all

end NodeInfo

namespace Cache

variable (c : Cache) (name : String)

@[simp] theorem moveNodeInfoToHead_frame :
    (c.moveNodeInfoToHead name).nodes = c.nodes ∧ (c.moveNodeInfoToHead name).podStates = c.podStates ∧
      (c.moveNodeInfoToHead name).assumedPods = c.assumedPods ∧ (c.moveNodeInfoToHead name).ttl = c.ttl ∧
      (c.moveNodeInfoToHead name).nodeTree = c.nodeTree ∧
      (c.moveNodeInfoToHead name).generation = c.generation := by
  unfold moveNodeInfoToHead
  split_ifs <;> exact ⟨rfl, rfl, rfl, rfl, rfl, rfl⟩

@[simp] theorem removeNodeInfoFromList_frame :
    (c.removeNodeInfoFromList name).podStates = c.podStates ∧
      (c.removeNodeInfoFromList name).assumedPods = c.assumedPods ∧
      (c.removeNodeInfoFromList name).ttl = c.ttl ∧
      (c.removeNodeInfoFromList name).nodeTree = c.nodeTree ∧
      (c.removeNodeInfoFromList name).generation = c.generation := by
  unfold removeNodeInfoFromList
  split_ifs <;> exact ⟨rfl, rfl, rfl, rfl, rfl⟩

theorem lookup_removeNodeInfoFromList (name' : String) :
    (c.removeNodeInfoFromList name).nodes.lookup name' =
      if name' = name then none else c.nodes.lookup name' := by
  unfold removeNodeInfoFromList
  split_ifs with h h' h'
  · subst h'
    exact Option.isNone_iff_eq_none.mp h
  · rfl
  · subst h'
    exact AList.lookup_erase _ _
  · exact AList.lookup_erase_ne h'

theorem uidsAt_removeNodeInfoFromList (name' : String) :
    uidsAt (c.removeNodeInfoFromList name).nodes name' =
      if name' = name then [] else uidsAt c.nodes name' := by
  unfold uidsAt
  rw [lookup_removeNodeInfoFromList]
  split_ifs <;> rfl

@[simp] theorem addPod_frame (pod : Pod) :
    (c.addPod pod).podStates = c.podStates ∧ (c.addPod pod).assumedPods = c.assumedPods ∧
      (c.addPod pod).ttl = c.ttl ∧ (c.addPod pod).nodeTree = c.nodeTree := by
  unfold addPod getOrCreate
  cases c.nodes.lookup pod.nodeName <;> simp [nextGeneration]

@[simp] theorem removePod_frame (pod : Pod) :
    (c.removePod pod).1.podStates = c.podStates ∧ (c.removePod pod).1.assumedPods = c.assumedPods ∧
      (c.removePod pod).1.ttl = c.ttl ∧ (c.removePod pod).1.nodeTree = c.nodeTree := by
  unfold removePod
  cases c.nodes.lookup pod.nodeName with
  | none => simp
  | some n =>
    dsimp only
    rcases n.removePod pod (c.generation + 1) with ⟨n', _ | _⟩
    · simp
    · dsimp only
      split_ifs <;> simp [nextGeneration]

theorem frame_of_removePod {pod : Pod} {c' : Cache} {r : Except String Unit}
    (h : c.removePod pod = (c', r)) : c'.podStates = c.podStates ∧ c'.assumedPods = c.assumedPods := by
  have hframe := removePod_frame c pod
  rw [h] at hframe
  exact ⟨hframe.1, hframe.2.1⟩

/-- `addPod` appends the pod to the `NodeInfo` of its node. -/
theorem uidsAt_addPod (pod : Pod) :
    uidsAt (c.addPod pod).nodes name =
      uidsAt c.nodes name ++ if name = pod.nodeName then [pod.uid] else [] := by
  unfold addPod getOrCreate
  by_cases hname : name = pod.nodeName
  · subst hname
    cases h : c.nodes.lookup pod.nodeName <;>
      simp only [moveNodeInfoToHead_frame, nextGeneration, uidsAt_insert, if_true] <;>
      simp [uidsAt, h, NodeInfo.addPod, NodeInfo.new, NodeInfo.empty]
  · cases c.nodes.lookup pod.nodeName <;>
      simp only [moveNodeInfoToHead_frame, nextGeneration, uidsAt_insert, if_neg hname] <;>
      simp

/-- A `removePod` that succeeds takes one pod with the key out of the `NodeInfo` of its node. -/
theorem uidsAt_removePod {pod : Pod} {c' : Cache} (h : c.removePod pod = (c', .ok ())) :
    (uidsAt c'.nodes name).Perm
      (if name = pod.nodeName then (uidsAt c.nodes name).erase pod.uid else uidsAt c.nodes name) := by
  unfold removePod at h
  cases hn : c.nodes.lookup pod.nodeName with
  | none =>
    simp only [hn, Prod.mk.injEq] at h
    obtain ⟨rfl, -⟩ := h
    split_ifs with hname
    · subst hname
      simp [uidsAt, hn]
    · rfl
  | some n =>
    simp only [hn] at h
    rcases hr : n.removePod pod (c.generation + 1) with ⟨n', _ | _⟩
    · simp [hr] at h
    · obtain ⟨hpods, -, -⟩ := NodeInfo.removePod_ok hr
      have hperm : (n'.pods.map (·.uid)).Perm ((uidsAt c.nodes pod.nodeName).erase pod.uid) := by
        rw [hpods]
        simpa [uidsAt, hn] using map_uid_removeFromSlice n.pods pod.uid
      simp only [hr] at h
      split_ifs at h with hgone
      · simp only [Prod.mk.injEq] at h
        obtain ⟨rfl, -⟩ := h
        simp only [uidsAt_removeNodeInfoFromList, uidsAt_insert]
        split_ifs with hname
        · subst hname
          rw [List.length_eq_zero_iff.mp hgone.1] at hperm
          exact hperm
        · rfl
      · simp only [Prod.mk.injEq] at h
        obtain ⟨rfl, -⟩ := h
        simp only [moveNodeInfoToHead_frame, uidsAt_insert]
        split_ifs with hname
        · subst hname
          exact hperm
        · rfl

/-- Under a `NodeInfo` that holds the pod's key, `removePod` succeeds. -/
theorem removePod_ok_of_mem {pod : Pod} (hk : getPodKey pod = .ok pod.uid)
    (hmem : pod.uid ∈ uidsAt c.nodes pod.nodeName) : ∃ c', c.removePod pod = (c', .ok ()) := by
  unfold removePod
  cases hn : c.nodes.lookup pod.nodeName with
  | none => exact ⟨c, rfl⟩
  | some n =>
    have hmem' : pod.uid ∈ n.pods.map (·.uid) := by simpa [uidsAt, hn] using hmem
    have hok := NodeInfo.removePod_ok_of_mem (c.generation + 1) hk hmem'
    dsimp only
    rcases hr : n.removePod pod (c.generation + 1) with ⟨n', _ | _⟩
    · rw [hr] at hok
      cases hok
    · dsimp only
      split_ifs <;> exact ⟨_, rfl⟩

theorem count_uidsAt_addPod (pod : Pod) (k : String) :
    (uidsAt (c.addPod pod).nodes name).count k =
      (uidsAt c.nodes name).count k + if name = pod.nodeName ∧ k = pod.uid then 1 else 0 := by
  rw [uidsAt_addPod, List.count_append]
  by_cases hname : name = pod.nodeName
  · by_cases hk : k = pod.uid
    · simp [hname, hk]
    · simp [hname, hk, Ne.symm hk]
  · simp [hname]

theorem count_uidsAt_removePod {pod : Pod} {c' : Cache} (h : c.removePod pod = (c', .ok ()))
    (k : String) :
    (uidsAt c'.nodes name).count k =
      (uidsAt c.nodes name).count k - if name = pod.nodeName ∧ k = pod.uid then 1 else 0 := by
  rw [(uidsAt_removePod c name h).count_eq]
  by_cases hname : name = pod.nodeName
  · by_cases hk : k = pod.uid <;> simp [hname, hk]
  · simp [hname]

theorem getOrCreate_frame :
    (c.getOrCreate name).1.podStates = c.podStates ∧
      (c.getOrCreate name).1.assumedPods = c.assumedPods ∧
      ∀ name', uidsAt (c.getOrCreate name).1.nodes name' = uidsAt c.nodes name' := by
  unfold getOrCreate
  cases hn : c.nodes.lookup name with
  | some n => exact ⟨rfl, rfl, fun _ => rfl⟩
  | none =>
    refine ⟨rfl, rfl, fun name' => ?_⟩
    simp only [nextGeneration, uidsAt_insert]
    split_ifs with h
    · subst h
      simp [uidsAt, hn, NodeInfo.new, NodeInfo.empty]
    · rfl

/-- The `NodeInfo` `getOrCreate` returns holds the pods of the node. -/
theorem pods_getOrCreate : (c.getOrCreate name).2.pods.map (·.uid) = uidsAt c.nodes name := by
  unfold getOrCreate
  cases hn : c.nodes.lookup name with
  | some n => simp [uidsAt, hn]
  | none => simp [uidsAt, hn, NodeInfo.new, NodeInfo.empty]

end Cache

/-! ## The invariant -/

/-- How many times the `NodeInfo` of `name` is to hold the key `k`: once when `k`'s pod is on
`name`, and never otherwise. -/
def wantCount (podStates : AList (fun _ : String => PodState)) (name k : String) : ℕ :=
  match podStates.lookup k with
  | some ps => if ps.pod.nodeName = name then 1 else 0
  | none => 0

theorem wantCount_insert (podStates : AList (fun _ : String => PodState)) (key : String)
    (ps : PodState) (name k : String) :
    wantCount (podStates.insert key ps) name k =
      if k = key then (if ps.pod.nodeName = name then 1 else 0) else wantCount podStates name k := by
  unfold wantCount
  by_cases hk : k = key
  · rw [if_pos hk, hk, AList.lookup_insert]
  · rw [if_neg hk, AList.lookup_insert_ne hk]

theorem wantCount_erase (podStates : AList (fun _ : String => PodState)) (key name k : String) :
    wantCount (podStates.erase key) name k = if k = key then 0 else wantCount podStates name k := by
  unfold wantCount
  by_cases hk : k = key
  · rw [if_pos hk, hk, AList.lookup_erase]
  · rw [if_neg hk, AList.lookup_erase_ne hk]

/-- The pod of `k` is past its deadline at `now`: its binding finished and its deadline is before
`now`. -/
def expiredAt (podStates : AList (fun _ : String => PodState)) (now : ℕ) (k : String) : Bool :=
  match podStates.lookup k with
  | some ps => ps.bindingFinished && ps.deadline.any (· < now)
  | none => false

theorem expiredAt_congr {podStates podStates' : AList (fun _ : String => PodState)} {now : ℕ}
    {k : String} (h : podStates'.lookup k = podStates.lookup k) :
    expiredAt podStates' now k = expiredAt podStates now k := by
  rw [expiredAt, expiredAt, h]

/-- `UpdatePod`'s arguments as the pod informer gives them: the new pod has the old one's UID, and
the old pod is on the node the cache has the pod on. -/
def UpdateConsistent (c : Cache) (oldPod newPod : Pod) : Prop :=
  newPod.uid = oldPod.uid ∧ ∀ ps, c.podStates.lookup oldPod.uid = some ps → ps.pod.nodeName = oldPod.nodeName

/-- Without `UpdateConsistent`, `UpdatePod` can hold a pod twice: the old pod names node `b`, which
has no `NodeInfo` (only logged), so nothing is removed, and the new pod joins node `a` again. -/
theorem updatePod_duplicates_pod :
    ∃ c', ((Cache.new 30).AddPod ⟨"u", "p", "a", false, false⟩).1.UpdatePod
        ⟨"u", "p", "b", false, false⟩ ⟨"u", "p", "a", false, false⟩ = some (c', .ok ()) ∧
      (uidsAt c'.nodes "a").count "u" = 2 :=
  ⟨_, rfl, by decide⟩

/-- What holds of the pods of every cache a run reaches. -/
structure PodInv (c : Cache) : Prop where
  /-- Every assumed key has a state. -/
  assumed_isSome : ∀ k ∈ c.assumedPods, (c.podStates.lookup k).isSome
  assumed_nodup : c.assumedPods.Nodup
  /-- Every state is held under its pod's key. -/
  key_eq : ∀ k ps, c.podStates.lookup k = some ps → getPodKey ps.pod = .ok k
  /-- The `NodeInfo` of a pod's node holds its key once, and no `NodeInfo` holds another key. -/
  count_eq : ∀ name k, (uidsAt c.nodes name).count k = wantCount c.podStates name k
  /-- An assumed pod whose binding finished has a deadline. -/
  deadline_isSome : ∀ k ∈ c.assumedPods, ∀ ps, c.podStates.lookup k = some ps →
    ps.bindingFinished = true → ps.deadline.isSome

namespace PodInv

variable {c : Cache}

/-- The invariant reads only the states, the assumed keys and the keys each `NodeInfo` holds. -/
theorem congr {c' : Cache} (h : PodInv c) (hstates : c'.podStates = c.podStates)
    (hassumed : c'.assumedPods = c.assumedPods)
    (hnodes : ∀ name, uidsAt c'.nodes name = uidsAt c.nodes name) : PodInv c' where
  assumed_isSome k hk := by
    rw [hstates]
    exact h.assumed_isSome k (hassumed ▸ hk)
  assumed_nodup := hassumed ▸ h.assumed_nodup
  key_eq k ps hps := h.key_eq k ps (hstates ▸ hps)
  count_eq name k := by rw [hnodes, hstates]; exact h.count_eq name k
  deadline_isSome k hk ps hps := h.deadline_isSome k (hassumed ▸ hk) ps (hstates ▸ hps)

theorem uid_eq (h : PodInv c) {k : String} {ps : PodState} (hps : c.podStates.lookup k = some ps) :
    ps.pod.uid = k :=
  (getPodKey_eq_ok.mp (h.key_eq k ps hps)).2

/-- The `NodeInfo` of a pod's node holds its key. -/
theorem mem_uidsAt (h : PodInv c) {k : String} {ps : PodState}
    (hps : c.podStates.lookup k = some ps) : k ∈ uidsAt c.nodes ps.pod.nodeName := by
  have hcount := h.count_eq ps.pod.nodeName k
  simp only [wantCount, hps, if_true] at hcount
  exact List.count_pos_iff.mp (by omega)

/-- The `NodeInfo` of each node holds a key of the states once if its pod is on the node, and
never otherwise. -/
theorem count_of_lookup (h : PodInv c) {k : String} {ps : PodState}
    (hps : c.podStates.lookup k = some ps) (name : String) :
    (uidsAt c.nodes name).count k = if ps.pod.nodeName = name then 1 else 0 := by
  rw [h.count_eq, wantCount, hps]

/-- Removing a pod of the cache's key from the node the cache has it on succeeds. -/
theorem removePod_ok (h : PodInv c) {pod : Pod} {k : String} {ps : PodState}
    (hk : getPodKey pod = .ok k) (hps : c.podStates.lookup k = some ps)
    (hnode : ps.pod.nodeName = pod.nodeName) : ∃ c', c.removePod pod = (c', .ok ()) := by
  obtain ⟨-, rfl⟩ := getPodKey_eq_ok.mp hk
  refine Cache.removePod_ok_of_mem c hk ?_
  rw [← hnode]
  exact h.mem_uidsAt hps

/-- A call that stores `ps` under `key`, holds `key` once in the `NodeInfo` of its pod's node and
leaves the other keys where they were keeps the invariant. -/
theorem of_insert {c' : Cache} (h : PodInv c) (key : String) (ps : PodState)
    (hstates : c'.podStates = c.podStates.insert key ps) (hkey : getPodKey ps.pod = .ok key)
    (hassumed : ∀ k ∈ c'.assumedPods, k = key ∨ k ∈ c.assumedPods)
    (hnodup : c'.assumedPods.Nodup)
    (hdeadline : key ∈ c'.assumedPods → ps.bindingFinished = true → ps.deadline.isSome)
    (hcount : ∀ name k, (uidsAt c'.nodes name).count k =
      if k = key then (if ps.pod.nodeName = name then 1 else 0) else (uidsAt c.nodes name).count k) :
    PodInv c' where
  assumed_isSome k hk := by
    rw [hstates]
    by_cases hkey : k = key
    · rw [hkey, AList.lookup_insert]
      rfl
    · rw [AList.lookup_insert_ne hkey]
      exact h.assumed_isSome k ((hassumed k hk).resolve_left hkey)
  assumed_nodup := hnodup
  key_eq k ps' hps' := by
    rw [hstates] at hps'
    by_cases hk : k = key
    · rw [hk, AList.lookup_insert, Option.some.injEq] at hps'
      rw [hk, ← hps']
      exact hkey
    · rw [AList.lookup_insert_ne hk] at hps'
      exact h.key_eq k ps' hps'
  count_eq name k := by
    rw [hcount, hstates, wantCount_insert, h.count_eq]
  deadline_isSome k hk ps' hps' := by
    rw [hstates] at hps'
    by_cases hkk : k = key
    · rw [hkk, AList.lookup_insert, Option.some.injEq] at hps'
      subst hps'
      exact hdeadline (hkk ▸ hk)
    · rw [AList.lookup_insert_ne hkk] at hps'
      exact h.deadline_isSome k ((hassumed k hk).resolve_left hkk) ps' hps'

/-- A call that erases `key` from the states, the assumed keys and the `NodeInfo`s keeps the
invariant. -/
theorem of_erase {c' : Cache} (h : PodInv c) {key : String}
    (hstates : c'.podStates = c.podStates.erase key)
    (hassumed : c'.assumedPods = c.assumedPods.erase key)
    (hcount : ∀ name k, (uidsAt c'.nodes name).count k =
      if k = key then 0 else (uidsAt c.nodes name).count k) : PodInv c' where
  assumed_isSome k hk := by
    rw [hassumed, h.assumed_nodup.mem_erase_iff] at hk
    rw [hstates, AList.lookup_erase_ne hk.1]
    exact h.assumed_isSome k hk.2
  assumed_nodup := hassumed ▸ h.assumed_nodup.erase key
  key_eq k ps hps := by
    rw [hstates] at hps
    by_cases hk : k = key
    · rw [hk, AList.lookup_erase] at hps
      cases hps
    · exact h.key_eq k ps (by rwa [AList.lookup_erase_ne hk] at hps)
  count_eq name k := by
    rw [hcount, hstates, wantCount_erase, h.count_eq]
  deadline_isSome k hk ps hps := by
    rw [hassumed, h.assumed_nodup.mem_erase_iff] at hk
    rw [hstates, AList.lookup_erase_ne hk.1] at hps
    exact h.deadline_isSome k hk.2 ps hps

/-- Removing the pod of a state from its node takes its key, and only its key, out of the
`NodeInfo`s. -/
theorem count_removePod (h : PodInv c) {pod : Pod} {key : String} {ps : PodState} {c' : Cache}
    (hk : getPodKey pod = .ok key) (hps : c.podStates.lookup key = some ps)
    (hnode : ps.pod.nodeName = pod.nodeName) (hc' : c.removePod pod = (c', .ok ()))
    (name k : String) :
    (uidsAt c'.nodes name).count k = if k = key then 0 else (uidsAt c.nodes name).count k := by
  obtain ⟨-, rfl⟩ := getPodKey_eq_ok.mp hk
  rw [Cache.count_uidsAt_removePod c name hc']
  by_cases hkey : k = pod.uid
  · subst hkey
    rw [if_pos rfl, h.count_of_lookup hps]
    by_cases hname : name = pod.nodeName
    · simp [hname, hnode]
    · simp [hname, hnode, Ne.symm hname]
  · simp [hkey]

/-- `AssumePod` keeps the invariant. -/
theorem assumePod (h : PodInv c) (pod : Pod) : PodInv (c.AssumePod pod).1 := by
  unfold Cache.AssumePod
  cases hk : getPodKey pod with
  | error => exact h
  | ok key =>
    obtain ⟨-, hkey⟩ := getPodKey_eq_ok.mp hk
    dsimp only
    by_cases hin : (c.podStates.lookup key).isSome
    · rw [if_pos hin]
      exact h
    · rw [if_neg hin]
      have hnone : c.podStates.lookup key = none := Option.not_isSome_iff_eq_none.mp hin
      obtain ⟨hstates, hassumed, -, -⟩ := Cache.addPod_frame c pod
      refine h.of_insert key ⟨pod, none, false⟩ (by rw [hstates]) hk (fun k hk' => ?_) ?_
        (fun _ hfin => ?_) fun name k => ?_
      · rw [List.mem_insert_iff, hassumed] at hk'
        exact hk'
      · rw [hassumed]
        exact h.assumed_nodup.insert
      · cases hfin
      · rw [Cache.count_uidsAt_addPod]
        by_cases hkk : k = key
        · subst hkk
          rw [h.count_eq, wantCount, hnone, if_pos rfl, ← hkey]
          by_cases hname : name = pod.nodeName <;> simp [hname, eq_comm]
        · rw [hkey]
          simp [hkk]

/-- A call that changes a state but not its pod, nor any `NodeInfo`, keeps the counts. -/
theorem count_of_same_pod (h : PodInv c) {key : String} {ps ps' : PodState}
    (hps : c.podStates.lookup key = some ps) (hpod : ps'.pod.nodeName = ps.pod.nodeName)
    (name k : String) : (uidsAt c.nodes name).count k =
      if k = key then (if ps'.pod.nodeName = name then 1 else 0) else (uidsAt c.nodes name).count k := by
  by_cases hk : k = key
  · subst hk
    rw [if_pos rfl, hpod, h.count_of_lookup hps]
  · rw [if_neg hk]

/-- `finishBinding` keeps the invariant. -/
theorem finishBinding (h : PodInv c) (pod : Pod) (now : ℕ) : PodInv (c.finishBinding pod now).1 := by
  unfold Cache.finishBinding
  cases hk : getPodKey pod with
  | error => exact h
  | ok key =>
    dsimp only
    cases hps : c.podStates.lookup key with
    | none => exact h
    | some currState =>
      dsimp only
      split_ifs with hassumed
      · exact h.of_insert key _ rfl (h.key_eq key currState hps) (fun k hk => .inr hk) h.assumed_nodup
          (fun _ _ => rfl) (h.count_of_same_pod hps rfl)
      · exact h

/-- `ForgetPod` keeps the invariant. -/
theorem forgetPod (h : PodInv c) (pod : Pod) : PodInv (c.ForgetPod pod).1 := by
  unfold Cache.ForgetPod
  cases hk : getPodKey pod with
  | error => exact h
  | ok key =>
    dsimp only
    cases hps : c.podStates.lookup key with
    | none => exact h
    | some currState =>
      dsimp only
      by_cases hnode : currState.pod.nodeName ≠ pod.nodeName
      · rw [if_pos hnode]
        exact h
      · rw [if_neg hnode]
        by_cases hassumed : key ∈ c.assumedPods
        · rw [if_pos hassumed]
          obtain ⟨c', hc'⟩ := h.removePod_ok hk hps (not_not.mp hnode)
          rw [hc']
          dsimp only
          obtain ⟨hstates, hassumed'⟩ := Cache.frame_of_removePod c hc'
          have hcount := h.count_removePod hk hps (not_not.mp hnode) hc'
          exact h.of_erase (by rw [hstates]) (by rw [hassumed']) hcount
        · rw [if_neg hassumed]
          exact h

/-- `AddPod` keeps the invariant: an assumed pod confirmed on another node leaves the first one. -/
theorem addPod (h : PodInv c) (pod : Pod) : PodInv (c.AddPod pod).1 := by
  unfold Cache.AddPod
  cases hk : getPodKey pod with
  | error => exact h
  | ok key =>
    obtain ⟨-, hkey⟩ := getPodKey_eq_ok.mp hk
    dsimp only
    cases hps : c.podStates.lookup key with
    | none =>
      dsimp only
      obtain ⟨hstates, hassumed, -, -⟩ := Cache.addPod_frame c pod
      refine h.of_insert key ⟨pod, none, false⟩ (by rw [hstates]) hk
        (fun k hk' => .inr (hassumed ▸ hk'))
        (hassumed ▸ h.assumed_nodup) (fun hin => absurd (hassumed ▸ hin) ?_) fun name k => ?_
      · exact fun hin => by simpa [hps] using h.assumed_isSome key hin
      · rw [Cache.count_uidsAt_addPod, hkey]
        by_cases hkk : k = key
        · subst hkk
          rw [h.count_eq, wantCount, hps]
          by_cases hname : name = pod.nodeName
          · simp [hname]
          · simp [hname, Ne.symm hname]
        · simp [hkk]
    | some currState =>
      dsimp only
      by_cases hassumed : key ∈ c.assumedPods
      · rw [if_pos hassumed]
        by_cases hnode : currState.pod.nodeName ≠ pod.nodeName
        · rw [if_pos hnode]
          have hcurr := h.key_eq key currState hps
          obtain ⟨c₁, hc₁⟩ := h.removePod_ok hcurr hps rfl
          rw [hc₁]
          dsimp only
          obtain ⟨hstates₁, hassumed₁⟩ := Cache.frame_of_removePod c hc₁
          obtain ⟨hstates₂, hassumed₂, -, -⟩ := Cache.addPod_frame c₁ pod
          refine h.of_insert key { currState with deadline := none, pod } (by rw [hstates₂, hstates₁]) hk
            (fun k hk' => ?_) ?_
            (fun hin => absurd hin ?_) fun name k => ?_
          · rw [hassumed₂, hassumed₁] at hk'
            exact .inr (List.mem_of_mem_erase hk')
          · rw [hassumed₂, hassumed₁]
            exact h.assumed_nodup.erase key
          · rw [hassumed₂, hassumed₁]
            exact h.assumed_nodup.not_mem_erase
          · rw [Cache.count_uidsAt_addPod, h.count_removePod hcurr hps rfl hc₁, hkey]
            by_cases hkk : k = key
            · subst hkk
              by_cases hname : name = pod.nodeName
              · simp [hname]
              · simp [hname, Ne.symm hname]
            · simp [hkk]
        · rw [if_neg hnode]
          refine h.of_insert key _ rfl hk (fun k hk' => .inr (List.mem_of_mem_erase hk'))
            (h.assumed_nodup.erase key) (fun hin => absurd hin h.assumed_nodup.not_mem_erase)
            (h.count_of_same_pod hps (not_not.mp hnode).symm)
      · rw [if_neg hassumed]
        exact h

/-- `UpdatePod` keeps the invariant when it does not end the process. -/
theorem updatePod (h : PodInv c) {oldPod newPod : Pod} (hcons : UpdateConsistent c oldPod newPod)
    {c' : Cache} {err : Except String Unit} (hstep : c.UpdatePod oldPod newPod = some (c', err)) :
    PodInv c' := by
  unfold Cache.UpdatePod at hstep
  cases hk : getPodKey oldPod with
  | error =>
    simp only [hk, Option.some.injEq, Prod.mk.injEq] at hstep
    exact hstep.1 ▸ h
  | ok key =>
    obtain ⟨-, hkey⟩ := getPodKey_eq_ok.mp hk
    simp only [hk] at hstep
    cases hps : c.podStates.lookup key with
    | none =>
      simp only [hps, Option.some.injEq, Prod.mk.injEq] at hstep
      exact hstep.1 ▸ h
    | some currState =>
      simp only [hps] at hstep
      by_cases hassumed : key ∈ c.assumedPods
      · simp only [hassumed, not_true_eq_false, if_false, Option.some.injEq, Prod.mk.injEq] at hstep
        exact hstep.1 ▸ h
      · rw [if_pos hassumed] at hstep
        by_cases hnode : currState.pod.nodeName ≠ newPod.nodeName
        · rw [if_pos hnode] at hstep
          cases hstep
        · rw [if_neg hnode] at hstep
          have hold : currState.pod.nodeName = oldPod.nodeName := hcons.2 currState (hkey ▸ hps)
          obtain ⟨c₁, hc₁⟩ := h.removePod_ok hk hps hold
          have hupdate : c.updatePod oldPod newPod = (c₁.addPod newPod, .ok ()) := by
            rw [Cache.updatePod, hc₁]
          rw [hupdate] at hstep
          simp only [Option.some.injEq, Prod.mk.injEq] at hstep
          obtain ⟨rfl, -⟩ := hstep
          obtain ⟨hstates₁, hassumed₁⟩ := Cache.frame_of_removePod c hc₁
          obtain ⟨hstates₂, hassumed₂, -, -⟩ := Cache.addPod_frame c₁ newPod
          have hnewKey : getPodKey newPod = .ok key := by
            rw [getPodKey_eq_ok, hcons.1]
            exact getPodKey_eq_ok.mp hk
          have hcount := h.count_removePod hk hps hold hc₁
          refine h.of_insert key { currState with pod := newPod } (by rw [hstates₂, hstates₁]) hnewKey
            (fun k hk' => .inr (by rwa [hassumed₂, hassumed₁] at hk'))
            (by rw [hassumed₂, hassumed₁]; exact h.assumed_nodup)
            (fun hin => absurd (by rwa [hassumed₂, hassumed₁] at hin) hassumed) fun name k => ?_
          rw [Cache.count_uidsAt_addPod, hcount, hcons.1, hkey]
          by_cases hkk : k = key
          · subst hkk
            by_cases hname : name = newPod.nodeName
            · simp [hname]
            · simp [hname, Ne.symm hname]
          · simp [hkk]

/-- `RemovePod` keeps the invariant when it does not end the process. -/
theorem removePod (h : PodInv c) {pod : Pod} {c' : Cache} {err : Except String Unit}
    (hstep : c.RemovePod pod = some (c', err)) : PodInv c' := by
  unfold Cache.RemovePod at hstep
  cases hk : getPodKey pod with
  | error =>
    simp only [hk, Option.some.injEq, Prod.mk.injEq] at hstep
    exact hstep.1 ▸ h
  | ok key =>
    simp only [hk] at hstep
    cases hps : c.podStates.lookup key with
    | none =>
      simp only [hps, Option.some.injEq, Prod.mk.injEq] at hstep
      exact hstep.1 ▸ h
    | some currState =>
      simp only [hps] at hstep
      by_cases hassumed : key ∈ c.assumedPods
      · simp only [hassumed, not_true_eq_false, if_false, Option.some.injEq, Prod.mk.injEq] at hstep
        exact hstep.1 ▸ h
      · rw [if_pos hassumed] at hstep
        by_cases hnode : currState.pod.nodeName ≠ pod.nodeName
        · rw [if_pos hnode] at hstep
          cases hstep
        · rw [if_neg hnode] at hstep
          have hcurr := h.key_eq key currState hps
          obtain ⟨c₁, hc₁⟩ := h.removePod_ok hcurr hps rfl
          rw [hc₁] at hstep
          simp only [Option.some.injEq, Prod.mk.injEq] at hstep
          obtain ⟨rfl, -⟩ := hstep
          obtain ⟨hstates₁, hassumed₁⟩ := Cache.frame_of_removePod c hc₁
          have hcount := h.count_removePod hcurr hps rfl hc₁
          refine h.of_erase (by rw [hstates₁]) ?_ hcount
          rw [hassumed₁, List.erase_of_not_mem hassumed]

/-- Setting the node of the `NodeInfo` `getOrCreate` returns keeps the invariant: that `NodeInfo`
holds the keys the node's held. -/
theorem of_setNode (h : PodInv c) {name : String} {c₁ c' : Cache} {n : NodeInfo}
    (hg : c.getOrCreate name = (c₁, n)) (node : Node) (g : ℕ)
    (hstates : c'.podStates = c₁.podStates) (hassumed : c'.assumedPods = c₁.assumedPods)
    (hnodes : c'.nodes = c₁.nodes.insert name (n.setNode node g)) : PodInv c' := by
  have hframe := c.getOrCreate_frame name
  have hpods := c.pods_getOrCreate name
  rw [hg] at hframe hpods
  obtain ⟨hstates₁, hassumed₁, hnodes₁⟩ := hframe
  refine h.congr (hstates.trans hstates₁) (hassumed.trans hassumed₁) fun name' => ?_
  rw [hnodes, uidsAt_insert]
  split_ifs with hname
  · subst hname
    simpa [NodeInfo.setNode] using hpods
  · exact hnodes₁ name'

/-- `AddNode` keeps the invariant: the `NodeInfo` it sets the node of keeps its pods. -/
theorem addNode (h : PodInv c) (node : Node) : PodInv (c.AddNode node).1 := by
  unfold Cache.AddNode
  rcases hg : c.getOrCreate node.name with ⟨c₁, n⟩
  exact h.of_setNode hg node (c₁.generation + 1) (by simp [Cache.nextGeneration]) (by simp [Cache.nextGeneration])
    (by simp [Cache.nextGeneration])

/-- `UpdateNode` keeps the invariant, as `AddNode` does. -/
theorem updateNode (h : PodInv c) (oldNode newNode : Node) :
    PodInv (c.UpdateNode oldNode newNode).1 := by
  unfold Cache.UpdateNode
  cases hl : c.nodes.lookup newNode.name with
  | some _ =>
    dsimp only
    rcases hg : c.getOrCreate newNode.name with ⟨c₁, n⟩
    exact h.of_setNode hg newNode (c₁.generation + 1) (by simp [Cache.nextGeneration])
      (by simp [Cache.nextGeneration]) (by simp [Cache.nextGeneration])
  | none =>
    dsimp only
    have h₀ : PodInv { c with nodeTree := c.nodeTree.addNode newNode } := h.congr rfl rfl fun _ => rfl
    rcases hg : ({ c with nodeTree := c.nodeTree.addNode newNode } : Cache).getOrCreate newNode.name
      with ⟨c₁, n⟩
    exact h₀.of_setNode hg newNode (c₁.generation + 1) (by simp [Cache.nextGeneration])
      (by simp [Cache.nextGeneration]) (by simp [Cache.nextGeneration])

/-- `RemoveNode` keeps the invariant: the `NodeInfo` keeps its pods, and goes only when it has
none. -/
theorem removeNode (h : PodInv c) (node : Node) : PodInv (c.RemoveNode node).1 := by
  unfold Cache.RemoveNode
  cases hn : c.nodes.lookup node.name with
  | none => exact h
  | some n =>
    dsimp only
    let c₁ : Cache :=
      { c.nextGeneration with nodes := c.nodes.insert node.name (n.removeNode (c.generation + 1)) }
    have h₁ : PodInv c₁ := by
      refine h.congr rfl rfl fun name => ?_
      simp only [c₁, uidsAt_insert]
      split_ifs with hname
      · subst hname
        simp [uidsAt, hn, NodeInfo.removeNode]
      · rfl
    have h₂ : PodInv (if (n.removeNode (c.generation + 1)).pods.length = 0 then
        c₁.removeNodeInfoFromList node.name else c₁.moveNodeInfoToHead node.name) := by
      split_ifs with hempty
      · refine h₁.congr (Cache.removeNodeInfoFromList_frame c₁ node.name).1
          (Cache.removeNodeInfoFromList_frame c₁ node.name).2.1 fun name => ?_
        rw [Cache.uidsAt_removeNodeInfoFromList]
        split_ifs with hname
        · subst hname
          simp only [c₁, uidsAt_insert, if_true]
          rw [List.length_eq_zero_iff.mp hempty, List.map_nil]
        · rfl
      · exact h₁.congr (Cache.moveNodeInfoToHead_frame c₁ node.name).2.1
          (Cache.moveNodeInfoToHead_frame c₁ node.name).2.2.1
          fun name => by rw [uidsAt, uidsAt, (Cache.moveNodeInfoToHead_frame c₁ node.name).1]
    split
    · exact h₂
    · exact h₂.congr rfl rfl fun _ => rfl

/-- `expirePod` of an assumed pod's state keeps the invariant. -/
theorem expirePod (h : PodInv c) {key : String} {ps : PodState}
    (hps : c.podStates.lookup key = some ps) : PodInv (c.expirePod key ps).1 := by
  have hk := h.key_eq key ps hps
  obtain ⟨c₁, hc₁⟩ := h.removePod_ok hk hps rfl
  unfold Cache.expirePod
  rw [hc₁]
  dsimp only
  obtain ⟨hstates₁, hassumed₁⟩ := Cache.frame_of_removePod c hc₁
  have hcount := h.count_removePod hk hps rfl hc₁
  exact h.of_erase (by rw [hstates₁]) (by rw [hassumed₁]) hcount

/-- `cleanupAssumedPods` keeps the invariant when it does not end the process. -/
theorem cleanupAssumedPods (h : PodInv c) {now : ℕ} {c' : Cache}
    (hc' : c.cleanupAssumedPods now = some c') : PodInv c' := by
  refine Reach.foldlM_option_invariant PodInv (fun c₁ key c₂ _ h₁ hstep => ?_) h hc'
  unfold Cache.cleanupAssumedPod at hstep
  cases hps : c₁.podStates.lookup key with
  | none => simp [hps] at hstep
  | some ps =>
    simp only [hps] at hstep
    split_ifs at hstep with hfin
    · cases hstep
      exact h₁
    · split at hstep
      · cases hstep
      · split_ifs at hstep with hnow
        · cases hstep
          exact h₁.expirePod hps
        · cases hstep
          exact h₁

theorem new (ttl : ℕ) : PodInv (Cache.new ttl) where
  assumed_isSome _ hk := nomatch hk
  assumed_nodup := List.nodup_nil
  key_eq _ _ hps := nomatch hps
  count_eq _ _ := rfl
  deadline_isSome _ hk := nomatch hk

/-- The `NodeInfo`s hold the keys of `podStates`, each once, and nothing else. -/
theorem uids_perm (h : PodInv c) :
    (c.nodes.keys.flatMap (uidsAt c.nodes)).Perm c.podStates.keys := by
  refine List.perm_iff_count.mpr fun k => ?_
  rw [List.count_flatMap]
  cases hps : c.podStates.lookup k with
  | none =>
    have hnot : k ∉ c.podStates.keys := fun hk => by
      rw [← AList.mem_keys, ← AList.lookup_isSome, hps] at hk
      cases hk
    have hzero : c.nodes.keys.map (List.count k ∘ uidsAt c.nodes) = c.nodes.keys.map fun _ => 0 :=
      List.map_congr_left fun name _ => by simp [h.count_eq, wantCount, hps]
    rw [hzero, List.count_eq_zero_of_not_mem hnot]
    simp
  | some ps =>
    have hone : c.nodes.keys.map (List.count k ∘ uidsAt c.nodes) =
        c.nodes.keys.map fun name => if ps.pod.nodeName = name then 1 else 0 :=
      List.map_congr_left fun name _ => h.count_of_lookup hps name
    have hnode : ps.pod.nodeName ∈ c.nodes.keys := mem_keys_of_mem_uidsAt (h.mem_uidsAt hps)
    have hk : k ∈ c.podStates.keys := AList.mem_keys.mp (AList.lookup_isSome.mp (by rw [hps]; rfl))
    rw [hone, List.sum_map_eq_nsmul_single ps.pod.nodeName _ fun name hne _ => if_neg (Ne.symm hne),
      List.count_eq_one_of_mem c.nodes.keys_nodup hnode,
      List.count_eq_one_of_mem c.podStates.keys_nodup hk]
    simp

/-- `PodCount` on the invariant is the number of pods the cache tracks. -/
theorem podCount_eq (h : PodInv c) : c.PodCount = c.podStates.keys.length := by
  have hsum : c.PodCount = (c.nodes.keys.map fun name => (uidsAt c.nodes name).length).sum := by
    rw [Cache.PodCount, AList.keys, List.keys, List.map_map]
    congr 1
    refine List.map_congr_left fun e he => ?_
    have hlookup : c.nodes.lookup e.1 = some e.2 := AList.mem_lookup_iff.mpr he
    simp [uidsAt, hlookup]
  rw [hsum, ← List.length_flatMap, h.uids_perm.length_eq]

/-- On the invariant, `expirePod` drops the key from the assumed ones and from the states. -/
theorem expirePod_frame (h : PodInv c) {key : String} {ps : PodState}
    (hps : c.podStates.lookup key = some ps) :
    (c.expirePod key ps).1.assumedPods = c.assumedPods.erase key ∧
      (c.expirePod key ps).1.podStates = c.podStates.erase key := by
  obtain ⟨c₁, hc₁⟩ := h.removePod_ok (h.key_eq key ps hps) hps rfl
  obtain ⟨hstates₁, hassumed₁⟩ := Cache.frame_of_removePod c hc₁
  unfold Cache.expirePod
  rw [hc₁]
  dsimp only
  rw [hassumed₁, hstates₁]
  exact ⟨rfl, rfl⟩

/-- One pass of the cleanup loop at an assumed key never ends the process on the invariant; it
drops the key from the assumed ones and from the states exactly when its pod expired. -/
theorem cleanupAssumedPod_spec (h : PodInv c) (now : ℕ) {key : String}
    (hkey : key ∈ c.assumedPods) :
    ∃ c', c.cleanupAssumedPod now key = some c' ∧ PodInv c' ∧
      (∀ k, k ∈ c'.assumedPods ↔ k ∈ c.assumedPods ∧ ¬(k = key ∧ expiredAt c.podStates now k)) ∧
      ∀ k, c'.podStates.lookup k =
        if k = key ∧ expiredAt c.podStates now k then none else c.podStates.lookup k := by
  obtain ⟨ps, hps⟩ := Option.isSome_iff_exists.mp (h.assumed_isSome key hkey)
  have hstay : expiredAt c.podStates now key = false →
      PodInv c ∧ (∀ k, k ∈ c.assumedPods ↔ k ∈ c.assumedPods ∧
        ¬(k = key ∧ expiredAt c.podStates now k)) ∧
      ∀ k, c.podStates.lookup k =
        if k = key ∧ expiredAt c.podStates now k then none else c.podStates.lookup k := by
    intro hexp
    refine ⟨h, fun k => ?_, fun k => ?_⟩ <;> by_cases hk : k = key
    · simp [hk, hexp]
    · simp [hk]
    · simp [hk, hexp]
    · simp [hk]
  unfold Cache.cleanupAssumedPod
  rw [hps]
  dsimp only
  cases hfin : ps.bindingFinished with
  | false =>
    exact ⟨c, rfl, hstay (by simp [expiredAt, hps, hfin])⟩
  | true =>
    obtain ⟨d, hd⟩ := Option.isSome_iff_exists.mp (h.deadline_isSome key hkey ps hps hfin)
    simp only [Bool.not_true, Bool.false_eq_true, if_false, hd]
    by_cases hnow : now > d
    · rw [if_pos hnow]
      have hexp : expiredAt c.podStates now key = true := by simp [expiredAt, hps, hfin, hd, hnow]
      obtain ⟨hassumed, hstates⟩ := h.expirePod_frame hps
      refine ⟨_, rfl, h.expirePod hps, fun k => ?_, fun k => ?_⟩
      · rw [hassumed, h.assumed_nodup.mem_erase_iff]
        by_cases hk : k = key
        · simp [hk, hexp]
        · simp [hk]
      · rw [hstates]
        by_cases hk : k = key
        · rw [hk, AList.lookup_erase, if_pos ⟨rfl, hexp⟩]
        · rw [AList.lookup_erase_ne hk, if_neg (fun h => hk h.1)]
    · rw [if_neg hnow]
      exact ⟨c, rfl, hstay (by simp [expiredAt, hps, hfin, hd]; omega)⟩

/-- The cleanup loop over distinct assumed keys, visited in any order, expires exactly the visited
pods that are past their deadline. Induction on the keys, the cache re-quantified: a pass changes
only its own key's state, so the keys still to visit read the states they read at the start. -/
theorem cleanup_loop (now : ℕ) (keys : List String) :
    ∀ {c : Cache}, PodInv c → keys.Nodup → (∀ k ∈ keys, k ∈ c.assumedPods) →
    ∃ c', keys.foldlM (Cache.cleanupAssumedPod now) c = some c' ∧ PodInv c' ∧
      (∀ k, k ∈ c'.assumedPods ↔ k ∈ c.assumedPods ∧ ¬(k ∈ keys ∧ expiredAt c.podStates now k)) ∧
      ∀ k, c'.podStates.lookup k =
        if k ∈ keys ∧ expiredAt c.podStates now k then none else c.podStates.lookup k := by
  induction keys with
  | nil =>
    intro c h _ _
    exact ⟨c, rfl, h, fun k => by simp, fun k => by simp⟩
  | cons key keys ih =>
    intro c h hnodup hkeys
    obtain ⟨hnotin, hnodup'⟩ := List.nodup_cons.mp hnodup
    obtain ⟨c₁, hc₁, h₁, hmem₁, hlookup₁⟩ :=
      h.cleanupAssumedPod_spec now (hkeys key List.mem_cons_self)
    have hne : ∀ k ∈ keys, k ≠ key := fun k hk hkk => hnotin (hkk ▸ hk)
    have hsame : ∀ k ∈ keys, expiredAt c₁.podStates now k = expiredAt c.podStates now k :=
      fun k hk => expiredAt_congr (by rw [hlookup₁, if_neg fun h => hne k hk h.1])
    obtain ⟨c', hc', h', hmem', hlookup'⟩ := ih h₁ hnodup'
      fun k hk => (hmem₁ k).mpr ⟨hkeys k (List.mem_cons_of_mem _ hk), fun h => hne k hk h.1⟩
    refine ⟨c', by rw [List.foldlM_cons, hc₁]; exact hc', h', fun k => ?_, fun k => ?_⟩
    · rw [hmem', hmem₁]
      by_cases hk : k ∈ keys
      · simp [hk, hsame k hk, hne k hk]
      · simp [hk]
    · rw [hlookup', hlookup₁]
      by_cases hk : k ∈ keys
      · simp [hk, hsame k hk, hne k hk]
      · by_cases hkk : k = key
        · subst hkk
          simp [hk]
        · simp [hk, hkk]

/-- **In whatever order Go's map hands out the assumed keys, the cleanup never ends the process on
the invariant, and expires exactly the assumed pods whose binding finished and whose deadline is
past**: they leave the assumed keys and the states, every other state is kept, and the invariant
(so each expired pod is gone from its `NodeInfo`) holds after. The model's own
`cleanupAssumedPods` is the order of the list. -/
theorem cleanupAssumedPods_any_order (h : PodInv c) (now : ℕ) {keys : List String}
    (hkeys : keys.Perm c.assumedPods) :
    ∃ c', keys.foldlM (Cache.cleanupAssumedPod now) c = some c' ∧ PodInv c' ∧
      (∀ k, k ∈ c'.assumedPods ↔ k ∈ c.assumedPods ∧ expiredAt c.podStates now k = false) ∧
      ∀ k, c'.podStates.lookup k =
        if k ∈ c.assumedPods ∧ expiredAt c.podStates now k then none else c.podStates.lookup k := by
  obtain ⟨c', hc', h', hmem, hlookup⟩ := cleanup_loop now keys h
    (hkeys.nodup_iff.mpr h.assumed_nodup) fun k hk => hkeys.mem_iff.mp hk
  refine ⟨c', hc', h', fun k => ?_, fun k => ?_⟩
  · rw [hmem, hkeys.mem_iff]
    by_cases hk : k ∈ c.assumedPods <;> simp [hk]
  · rw [hlookup]
    simp only [hkeys.mem_iff]

/-- A pod assumed on node `a` whose binding finished at time 0 expires in the cleanup at time 40,
with a time to live of 30. -/
theorem cleanupAssumedPods_any_order_bound_pod :
    ∃ c : Cache, PodInv c ∧ "u" ∈ c.assumedPods ∧ expiredAt c.podStates 40 "u" = true ∧
      ∃ c', c.assumedPods.foldlM (Cache.cleanupAssumedPod 40) c = some c' ∧
        "u" ∉ c'.assumedPods ∧ c'.podStates.lookup "u" = none := by
  have h := ((PodInv.new 30).assumePod ⟨"u", "p", "a", false, false⟩).finishBinding
    ⟨"u", "p", "a", false, false⟩ 0
  have hin : "u" ∈ (((Cache.new 30).AssumePod ⟨"u", "p", "a", false, false⟩).1.finishBinding
      ⟨"u", "p", "a", false, false⟩ 0).1.assumedPods := by decide
  have hexp : expiredAt (((Cache.new 30).AssumePod ⟨"u", "p", "a", false, false⟩).1.finishBinding
      ⟨"u", "p", "a", false, false⟩ 0).1.podStates 40 "u" = true := by decide
  obtain ⟨c', hc', -, hmem, hlookup⟩ := cleanupAssumedPods_any_order h 40 (List.Perm.refl _)
  refine ⟨_, h, hin, hexp, c', hc', fun hin' => ?_, by rw [hlookup, if_pos ⟨hin, hexp⟩]⟩
  rw [(hmem "u").mp hin' |>.2] at hexp
  cases hexp

end PodInv

/-! ## Calls that fail

A pod call checks its arguments before it changes the cache; the one change it makes that could
still fail is the removal of a pod from a `NodeInfo`, which on the invariant succeeds. -/

theorem Cache.assumePod_error {c c' : Cache} {pod : Pod} {msg : String}
    (he : c.AssumePod pod = (c', .error msg)) : c' = c := by
  unfold Cache.AssumePod at he
  cases hk : getPodKey pod with
  | error =>
    rw [hk] at he
    exact (Prod.mk.inj he).1.symm
  | ok key =>
    rw [hk] at he
    dsimp only at he
    split_ifs at he
    · exact (Prod.mk.inj he).1.symm
    · cases (Prod.mk.inj he).2

theorem Cache.finishBinding_error {c c' : Cache} {pod : Pod} {now : ℕ} {msg : String}
    (he : c.finishBinding pod now = (c', .error msg)) : c' = c := by
  unfold Cache.finishBinding at he
  cases hk : getPodKey pod with
  | error =>
    rw [hk] at he
    exact (Prod.mk.inj he).1.symm
  | ok key =>
    rw [hk] at he
    dsimp only at he
    cases hps : c.podStates.lookup key with
    | none =>
      rw [hps] at he
      cases (Prod.mk.inj he).2
    | some currState =>
      rw [hps] at he
      dsimp only at he
      split_ifs at he
      · cases (Prod.mk.inj he).2
      · cases (Prod.mk.inj he).2

theorem Cache.addPod_error {c c' : Cache} {pod : Pod} {msg : String}
    (he : c.AddPod pod = (c', .error msg)) : c' = c := by
  unfold Cache.AddPod at he
  cases hk : getPodKey pod with
  | error =>
    rw [hk] at he
    exact (Prod.mk.inj he).1.symm
  | ok key =>
    rw [hk] at he
    dsimp only at he
    cases hps : c.podStates.lookup key with
    | none =>
      rw [hps] at he
      cases (Prod.mk.inj he).2
    | some currState =>
      rw [hps] at he
      dsimp only at he
      by_cases hassumed : key ∈ c.assumedPods
      · rw [if_pos hassumed] at he
        cases (Prod.mk.inj he).2
      · rw [if_neg hassumed] at he
        exact (Prod.mk.inj he).1.symm

/-- On the invariant, `ForgetPod` fails only at its checks. -/
theorem PodInv.forgetPod_error {c c' : Cache} (h : PodInv c) {pod : Pod} {msg : String}
    (he : c.ForgetPod pod = (c', .error msg)) : c' = c := by
  unfold Cache.ForgetPod at he
  cases hk : getPodKey pod with
  | error =>
    rw [hk] at he
    exact (Prod.mk.inj he).1.symm
  | ok key =>
    rw [hk] at he
    dsimp only at he
    cases hps : c.podStates.lookup key with
    | none =>
      rw [hps] at he
      exact (Prod.mk.inj he).1.symm
    | some currState =>
      rw [hps] at he
      dsimp only at he
      by_cases hnode : currState.pod.nodeName ≠ pod.nodeName
      · rw [if_pos hnode] at he
        exact (Prod.mk.inj he).1.symm
      · rw [if_neg hnode] at he
        by_cases hassumed : key ∈ c.assumedPods
        · obtain ⟨c₁, hc₁⟩ := h.removePod_ok hk hps (not_not.mp hnode)
          rw [if_pos hassumed, hc₁] at he
          cases (Prod.mk.inj he).2
        · rw [if_neg hassumed] at he
          exact (Prod.mk.inj he).1.symm

/-- On the invariant and consistent arguments, `UpdatePod` fails only at its checks. -/
theorem PodInv.updatePod_error {c c' : Cache} (h : PodInv c) {oldPod newPod : Pod}
    (hcons : UpdateConsistent c oldPod newPod) {msg : String}
    (he : c.UpdatePod oldPod newPod = some (c', .error msg)) : c' = c := by
  unfold Cache.UpdatePod at he
  cases hk : getPodKey oldPod with
  | error =>
    rw [hk] at he
    exact (Prod.mk.inj (Option.some.inj he)).1.symm
  | ok key =>
    obtain ⟨-, hkey⟩ := getPodKey_eq_ok.mp hk
    rw [hk] at he
    dsimp only at he
    cases hps : c.podStates.lookup key with
    | none =>
      rw [hps] at he
      exact (Prod.mk.inj (Option.some.inj he)).1.symm
    | some currState =>
      rw [hps] at he
      dsimp only at he
      by_cases hassumed : key ∉ c.assumedPods
      · rw [if_pos hassumed] at he
        by_cases hnode : currState.pod.nodeName ≠ newPod.nodeName
        · rw [if_pos hnode] at he
          cases he
        · obtain ⟨c₁, hc₁⟩ := h.removePod_ok hk hps (hcons.2 currState (hkey ▸ hps))
          rw [if_neg hnode, Cache.updatePod, hc₁] at he
          cases (Prod.mk.inj (Option.some.inj he)).2
      · rw [if_neg hassumed] at he
        exact (Prod.mk.inj (Option.some.inj he)).1.symm

/-- On the invariant, `RemovePod` fails only at its checks. -/
theorem PodInv.removePod_error {c c' : Cache} (h : PodInv c) {pod : Pod} {msg : String}
    (he : c.RemovePod pod = some (c', .error msg)) : c' = c := by
  unfold Cache.RemovePod at he
  cases hk : getPodKey pod with
  | error =>
    rw [hk] at he
    exact (Prod.mk.inj (Option.some.inj he)).1.symm
  | ok key =>
    rw [hk] at he
    dsimp only at he
    cases hps : c.podStates.lookup key with
    | none =>
      rw [hps] at he
      exact (Prod.mk.inj (Option.some.inj he)).1.symm
    | some currState =>
      rw [hps] at he
      dsimp only at he
      by_cases hassumed : key ∉ c.assumedPods
      · rw [if_pos hassumed] at he
        by_cases hnode : currState.pod.nodeName ≠ pod.nodeName
        · rw [if_pos hnode] at he
          cases he
        · obtain ⟨c₁, hc₁⟩ := h.removePod_ok (h.key_eq key currState hps) hps rfl
          rw [if_neg hnode, hc₁] at he
          cases (Prod.mk.inj (Option.some.inj he)).2
      · rw [if_neg hassumed] at he
        exact (Prod.mk.inj (Option.some.inj he)).1.symm

/-! ## Runs -/

/-- A call as the scheduler and the informers make it: `UpdatePod`'s arguments are consistent. -/
def Event.Consistent (c : Cache) : Event → Prop
  | .updatePod oldPod newPod => UpdateConsistent c oldPod newPod
  | _ => True

/-- One call that does not end the process. -/
def CacheStep (e : Event) (c c' : Cache) : Prop :=
  e.Consistent c ∧ ∃ err, c.step e = some (c', err)

/-- The caches a run of calls reaches from `newSchedulerCache`. -/
def Reachable (c : Cache) : Prop :=
  Reach.Reachable (fun c => ∃ ttl, c = Cache.new ttl) CacheStep c

theorem fst_of_some_eq {p : Cache × Except String Unit} {c' : Cache} {err : Except String Unit}
    (h : some p = some (c', err)) : c' = p.1 := by
  rw [Option.some.inj h]

/-- Every call keeps the invariant. -/
theorem PodInv.step {c c' : Cache} (h : PodInv c) {e : Event} (hstep : CacheStep e c c') :
    PodInv c' := by
  obtain ⟨hcons, err, he⟩ := hstep
  cases e with
  | assumePod pod => exact fst_of_some_eq he ▸ h.assumePod pod
  | finishBinding pod now => exact fst_of_some_eq he ▸ h.finishBinding pod now
  | forgetPod pod => exact fst_of_some_eq he ▸ h.forgetPod pod
  | addPod pod => exact fst_of_some_eq he ▸ h.addPod pod
  | updatePod oldPod newPod => exact h.updatePod hcons he
  | removePod pod => exact h.removePod he
  | cleanupAssumedPods now =>
    obtain ⟨c₁, hc₁, heq⟩ := Option.map_eq_some_iff.mp he
    cases heq
    exact h.cleanupAssumedPods hc₁
  | addNode node => exact fst_of_some_eq he ▸ h.addNode node
  | updateNode oldNode newNode => exact fst_of_some_eq he ▸ h.updateNode oldNode newNode
  | removeNode node => exact fst_of_some_eq he ▸ h.removeNode node

theorem podInv_invariant :
    Reach.Invariant (fun c => ∃ ttl, c = Cache.new ttl) CacheStep PodInv where
  init _ := fun ⟨ttl, hc⟩ => hc ▸ PodInv.new ttl
  step _ _ _ h hstep := h.step hstep

/-- **Over every run, the cache holds each pod of its states once, in the `NodeInfo` of the pod's
node, and no other pod**; its assumed keys have states, and an assumed pod whose binding finished
has a deadline. -/
theorem Reachable.podInv {c : Cache} (hc : Reachable c) : PodInv c :=
  podInv_invariant.holds hc

/-- The cache after one pod is assumed on node `a` is reachable, and holds the invariant. -/
theorem Reachable.podInv_assumed :
    Reachable ((Cache.new 30).AssumePod ⟨"u", "p", "a", false, false⟩).1 ∧
      PodInv ((Cache.new 30).AssumePod ⟨"u", "p", "a", false, false⟩).1 := by
  have hc : Reachable ((Cache.new 30).AssumePod ⟨"u", "p", "a", false, false⟩).1 :=
    .step (.assumePod ⟨"u", "p", "a", false, false⟩) (.init ⟨30, rfl⟩) ⟨trivial, _, rfl⟩
  exact ⟨hc, Reachable.podInv hc⟩

/-- **On every reachable cache the `NodeInfo`s hold exactly the pods the cache tracks, each once**,
so `PodCount` is the number of pods in `podStates`. -/
theorem Reachable.podCount {c : Cache} (hc : Reachable c) :
    (c.nodes.keys.flatMap (uidsAt c.nodes)).Perm c.podStates.keys ∧
      c.PodCount = c.podStates.keys.length :=
  ⟨(podInv_invariant.holds hc).uids_perm, (podInv_invariant.holds hc).podCount_eq⟩

/-- After one pod is assumed, the cache counts one pod. -/
theorem Reachable.podCount_assumed :
    Reachable ((Cache.new 30).AssumePod ⟨"u", "p", "a", false, false⟩).1 ∧
      ((Cache.new 30).AssumePod ⟨"u", "p", "a", false, false⟩).1.PodCount = 1 := by
  have hc : Reachable ((Cache.new 30).AssumePod ⟨"u", "p", "a", false, false⟩).1 :=
    .step (.assumePod ⟨"u", "p", "a", false, false⟩) (.init ⟨30, rfl⟩) ⟨trivial, _, rfl⟩
  refine ⟨hc, ?_⟩
  rw [(Reachable.podCount hc).2]
  rfl

/-- **A call other than `RemoveNode` that fails leaves a reachable cache as it was.** Each pod
call checks before it changes anything, and the removal from a `NodeInfo` it then makes never
fails on a reachable cache. -/
theorem Reachable.step_error {c c' : Cache} (hc : Reachable c) {e : Event} (hcons : e.Consistent c)
    (hnode : ∀ node, e ≠ .removeNode node) {msg : String} (he : c.step e = some (c', .error msg)) :
    c' = c := by
  have h := podInv_invariant.holds hc
  cases e with
  | assumePod pod => exact Cache.assumePod_error (Option.some.inj he)
  | finishBinding pod now => exact Cache.finishBinding_error (Option.some.inj he)
  | forgetPod pod => exact h.forgetPod_error (Option.some.inj he)
  | addPod pod => exact Cache.addPod_error (Option.some.inj he)
  | updatePod oldPod newPod => exact h.updatePod_error hcons he
  | removePod pod => exact h.removePod_error he
  | cleanupAssumedPods now =>
    -- the cleanup reports no error: it either ends the process or succeeds
    obtain ⟨c₁, -, heq⟩ := Option.map_eq_some_iff.mp he
    cases (Prod.mk.inj heq).2
  | addNode node => cases (Prod.mk.inj (Option.some.inj he)).2
  | updateNode oldNode newNode => cases (Prod.mk.inj (Option.some.inj he)).2
  | removeNode node => exact absurd rfl (hnode node)

/-- A pod assumed a second time: the call fails, and the cache is as it was. -/
theorem Reachable.step_error_assumed_twice :
    Reachable ((Cache.new 30).AssumePod ⟨"u", "p", "a", false, false⟩).1 ∧
      ((Cache.new 30).AssumePod ⟨"u", "p", "a", false, false⟩).1.step
        (.assumePod ⟨"u", "p", "a", false, false⟩) =
        some (((Cache.new 30).AssumePod ⟨"u", "p", "a", false, false⟩).1,
          .error "pod u is in the cache, so can't be assumed") ∧
      ((Cache.new 30).AssumePod ⟨"u", "p", "a", false, false⟩).1 =
        ((Cache.new 30).AssumePod ⟨"u", "p", "a", false, false⟩).1 := by
  have hc : Reachable ((Cache.new 30).AssumePod ⟨"u", "p", "a", false, false⟩).1 :=
    .step (.assumePod ⟨"u", "p", "a", false, false⟩) (.init ⟨30, rfl⟩) ⟨trivial, _, rfl⟩
  have he : ((Cache.new 30).AssumePod ⟨"u", "p", "a", false, false⟩).1.step
      (.assumePod ⟨"u", "p", "a", false, false⟩) =
      some (((Cache.new 30).AssumePod ⟨"u", "p", "a", false, false⟩).1,
        .error "pod u is in the cache, so can't be assumed") := rfl
  exact ⟨hc, he, Reachable.step_error hc (e := .assumePod ⟨"u", "p", "a", false, false⟩) trivial
    (fun _ hn => by cases hn) he⟩

end Kubernetes.SchedulerCache
