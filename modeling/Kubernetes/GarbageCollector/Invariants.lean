import Mathlib
import Kubernetes.GarbageCollector.Graph

/-!
# The invariants of the dependency graph

Two of the graph builder's invariants hold after every event, whatever the events: each
dependent recorded for a node stored in `uidToNode` is the node stored under its own UID and
lists that node as an owner, and virtual nodes have no owners
(`runGraphChanges_dependentOf`, `runGraphChanges_virtual_owners`). The converse, that an owner's
node records each of its dependents, does not hold (`processGraphChanges_loses_dependent`).

The invariant `Graph.Invariant g E` also says that every address in use is below the next fresh
one, and that `uidToNode` maps each UID to a node of that UID. Its second argument excuses some
dependents: `removeNode` and an update of the owners first change the node, and only then remove
it from the old owners' dependents, so the dependents recorded in between are excused until the
loop reaches their owner. Each operation of the graph keeps the invariant, with the excuses it
needs; `processGraphChanges_wellFormed` assembles them.
-/

namespace Kubernetes.GarbageCollector

namespace Graph

variable {g g' : Graph} {E E' : ℕ → String → Prop} {p q d : ℕ} {uid : String} {n : Node}

/-- The node at `d` is the one stored under its UID, and has an owner reference of UID `uid`. -/
def DependentOf (g : Graph) (uid : String) (d : ℕ) : Prop :=
  ∃ dn, g.nodes d = some dn ∧ g.uidToNode dn.identity.uid = some d ∧ ∃ r ∈ dn.owners, r.uid = uid

/-- The graph's invariants, with the dependents `E` excuses: a dependent `d` of the node stored
under `uid` is `DependentOf g uid d` unless `E d uid`. -/
structure Invariant (g : Graph) (E : ℕ → String → Prop) : Prop where
  fresh : ∀ p, g.nextNode ≤ p → g.nodes p = none
  stored : ∀ uid p, g.uidToNode uid = some p → ∃ n, g.nodes p = some n ∧ n.identity.uid = uid
  dependents : ∀ uid p n, g.uidToNode uid = some p → g.nodes p = some n →
    ∀ d ∈ n.dependents, g.DependentOf uid d ∨ E d uid
  virtualOwners : ∀ p n, g.nodes p = some n → n.virtual = true → n.owners = []

/-- The graph's invariants, with no dependent excused. -/
def WellFormed (g : Graph) : Prop := g.Invariant fun _ _ => False

/-- `DependentOf` survives a change of the graph that keeps the dependent's identity and owners,
and its entry in `uidToNode`. -/
theorem DependentOf.frame (h : g.DependentOf uid d)
    (hnode : ∀ dn, g.nodes d = some dn →
      ∃ dn', g'.nodes d = some dn' ∧ dn'.identity = dn.identity ∧ dn'.owners = dn.owners)
    (huid : ∀ dn, g.nodes d = some dn → g.uidToNode dn.identity.uid = some d →
      (∃ r ∈ dn.owners, r.uid = uid) → g'.uidToNode dn.identity.uid = some d) :
    g'.DependentOf uid d := by
  obtain ⟨dn, hd, hu, hown⟩ := h
  obtain ⟨dn', hd', hid, howners⟩ := hnode dn hd
  exact ⟨dn', hd', hid ▸ huid dn hd hu hown, howners ▸ hown⟩

namespace Invariant

theorem lt_nextNode (hinv : g.Invariant E) (hp : g.nodes p = some n) : p < g.nextNode := by
  by_contra hlt
  simp [hinv.fresh p (Nat.le_of_not_lt hlt)] at hp

theorem uid_eq (hinv : g.Invariant E) (hp : g.uidToNode uid = some p) (hn : g.nodes p = some n) :
    n.identity.uid = uid := by
  obtain ⟨n', hn', hid⟩ := hinv.stored uid p hp
  rw [hn] at hn'
  cases hn'
  exact hid

theorem mono (hinv : g.Invariant E)
    (hE : ∀ uid p n d, g.uidToNode uid = some p → g.nodes p = some n → d ∈ n.dependents →
      E d uid → g.DependentOf uid d ∨ E' d uid) :
    g.Invariant E' where
  fresh := hinv.fresh
  stored := hinv.stored
  dependents uid p n hp hn d hd :=
    (hinv.dependents uid p n hp hn d hd).elim Or.inl (hE uid p n d hp hn hd)
  virtualOwners := hinv.virtualOwners

end Invariant

/-! ### The heap operations -/

theorem nodes_modify_eq_some {f : Node → Node} {m : Node} (h : (g.modify p f).nodes q = some m) :
    ∃ n, g.nodes q = some n ∧ m = if q = p then f n else n := by
  rw [modify_nodes, Function.update_apply] at h
  split_ifs at h with hqp
  · subst hqp
    obtain ⟨n, hn, rfl⟩ := Option.map_eq_some_iff.mp h
    exact ⟨n, hn, by simp⟩
  · exact ⟨m, h, by simp [hqp]⟩

theorem nodes_setNode_eq_some {c m : Node} (h : (g.setNode p c).nodes q = some m) :
    (q = p ∧ m = c) ∨ (q ≠ p ∧ g.nodes q = some m) := by
  by_cases hqp : q = p
  · subst hqp
    simp only [setNode_nodes, Function.update_self, Option.some.injEq] at h
    exact .inl ⟨rfl, h.symm⟩
  · exact .inr ⟨hqp, by simpa [hqp] using h⟩

theorem uidToNode_write_eq_some {u : String} (h : (g.write uid p).uidToNode u = some q) :
    (u = uid ∧ q = p) ∨ g.uidToNode u = some q := by
  rw [write_uidToNode, Function.update_apply] at h
  split_ifs at h with hu
  · exact .inl ⟨hu, (Option.some.inj h).symm⟩
  · exact .inr h

/-- A node replaced in place leaves the addresses past the fresh one empty. -/
theorem fresh_setNode (hinv : g.Invariant E) (hp : g.nodes p = some n) (c : Node) {q : ℕ}
    (hq : (g.setNode p c).nextNode ≤ q) : (g.setNode p c).nodes q = none := by
  have hne : q ≠ p := fun h => by
    subst h
    simp [hinv.fresh q hq] at hp
  simp [hne, hinv.fresh q hq]

/-- A node replaced in place by one of the same identity: each address still holds a node of the
UID it held before. -/
theorem stored_setNode (hp : g.nodes p = some n) (c : Node) (hid : c.identity = n.identity)
    {u : String} (h : ∃ m, g.nodes q = some m ∧ m.identity.uid = u) :
    ∃ m, (g.setNode p c).nodes q = some m ∧ m.identity.uid = u := by
  obtain ⟨m, hm, hmu⟩ := h
  by_cases hqp : q = p
  · subst hqp
    rw [hp] at hm
    cases hm
    exact ⟨c, by simp, hid ▸ hmu⟩
  · exact ⟨m, by simp [hqp, hm], hmu⟩

/-- A node replaced in place by one with the same dependents: each stored node has the
dependents of one stored before. -/
theorem exists_dependents_of_setNode (hp : g.nodes p = some n) {c m : Node}
    (hm : (g.setNode p c).nodes q = some m) (hdeps : c.dependents = n.dependents) :
    ∃ m', g.nodes q = some m' ∧ m'.dependents = m.dependents := by
  obtain ⟨rfl, rfl⟩ | ⟨-, hm⟩ := nodes_setNode_eq_some hm
  · exact ⟨n, hp, hdeps.symm⟩
  · exact ⟨m, hm, rfl⟩

theorem dependentOf_modify (f : List ℕ → List ℕ) (h : g.DependentOf uid d) :
    (g.modify p fun n => { n with dependents := f n.dependents }).DependentOf uid d := by
  refine h.frame (fun dn hd => ?_) (fun dn _ hu _ => by simpa using hu)
  rw [modify_nodes, Function.update_apply]
  split_ifs with hdp
  · subst hdp
    exact ⟨{ dn with dependents := f dn.dependents }, by simp [hd], rfl, rfl⟩
  · exact ⟨dn, hd, rfl, rfl⟩

/-- A change of one node's dependents keeps the invariant if the new ones are justified. -/
theorem modify_invariant (hinv : g.Invariant E) (f : List ℕ → List ℕ)
    (hf : ∀ uid n, g.uidToNode uid = some p → g.nodes p = some n →
      ∀ d ∈ f n.dependents, g.DependentOf uid d ∨ E d uid) :
    (g.modify p fun n => { n with dependents := f n.dependents }).Invariant E where
  fresh q hq := by
    rw [modify_nodes, Function.update_apply]
    split_ifs with hqp
    · subst hqp
      simp [hinv.fresh q (by simpa using hq)]
    · exact hinv.fresh q (by simpa using hq)
  stored uid q hq := by
    obtain ⟨n, hn, hid⟩ := hinv.stored uid q (by simpa using hq)
    rw [modify_nodes, Function.update_apply]
    split_ifs with hqp
    · subst hqp
      exact ⟨{ n with dependents := f n.dependents }, by simp [hn], hid⟩
    · exact ⟨n, hn, hid⟩
  dependents uid q m hq hm d hd := by
    rw [modify_uidToNode] at hq
    obtain ⟨n, hn, rfl⟩ := nodes_modify_eq_some hm
    have hold : g.DependentOf uid d ∨ E d uid := by
      split_ifs at hd with hqp
      · subst hqp
        exact hf uid n hq hn d hd
      · exact hinv.dependents uid q n hq hn d hd
    exact hold.imp_left (dependentOf_modify f)
  virtualOwners q m hm hv := by
    obtain ⟨n, hn, rfl⟩ := nodes_modify_eq_some hm
    split_ifs at hv ⊢ <;> exact hinv.virtualOwners q n hn hv

theorem dependentOf_alloc (hinv : g.Invariant E) (c : Node) (h : g.DependentOf uid d) :
    (g.alloc c).2.DependentOf uid d := by
  refine h.frame (fun dn hd => ⟨dn, ?_, rfl, rfl⟩) (fun dn _ hu _ => by simpa using hu)
  simp [(hinv.lt_nextNode hd).ne, hd]

/-- A new node at the fresh address keeps the invariant: nothing points at it yet. -/
theorem alloc_invariant (hinv : g.Invariant E) (c : Node) (hc : c.virtual = true → c.owners = []) :
    (g.alloc c).2.Invariant E where
  fresh q hq := by
    simp only [alloc_nextNode] at hq
    simp [show q ≠ g.nextNode by omega, hinv.fresh q (by omega)]
  stored uid q hq := by
    obtain ⟨n, hn, hid⟩ := hinv.stored uid q (by simpa using hq)
    exact ⟨n, by simp [(hinv.lt_nextNode hn).ne, hn], hid⟩
  dependents uid q m hq hm d hd := by
    rw [alloc_uidToNode] at hq
    obtain ⟨n, hn, -⟩ := hinv.stored uid q hq
    have hm' : g.nodes q = some m := by
      simpa [(hinv.lt_nextNode hn).ne] using hm
    exact (hinv.dependents uid q m hq hm' d hd).imp_left (dependentOf_alloc hinv c)
  virtualOwners q m hm hv := by
    rw [alloc_nodes, Function.update_apply] at hm
    split_ifs at hm
    · cases hm
      exact hc hv
    · exact hinv.virtualOwners q m hm hv

theorem dependentOf_write_of_none (hu : g.uidToNode uid = none) (p : ℕ) {uid' : String}
    (h : g.DependentOf uid' d) : (g.write uid p).DependentOf uid' d := by
  refine h.frame (fun dn hd => ⟨dn, by simpa using hd, rfl, rfl⟩) (fun dn _ hdu _ => ?_)
  have hne : dn.identity.uid ≠ uid := by
    rintro rfl
    simp [hdu] at hu
  simp [hne, hdu]

/-- Storing a node under a UID not in the graph keeps the invariant if its dependents are
justified. -/
theorem write_invariant (hinv : g.Invariant E) (hu : g.uidToNode uid = none) (hp : g.nodes p = some n)
    (hid : n.identity.uid = uid) (hdeps : ∀ d ∈ n.dependents, (g.write uid p).DependentOf uid d) :
    (g.write uid p).Invariant E where
  fresh := by simpa using hinv.fresh
  stored u q hq := by
    obtain ⟨rfl, rfl⟩ | hq := uidToNode_write_eq_some hq
    · exact ⟨n, hp, hid⟩
    · exact hinv.stored u q hq
  dependents u q m hq hm d hd := by
    obtain ⟨rfl, rfl⟩ | hq := uidToNode_write_eq_some hq
    · rw [write_nodes, hp] at hm
      cases hm
      exact .inl (hdeps d hd)
    · exact (hinv.dependents u q m hq hm d hd).imp_left (dependentOf_write_of_none hu p)
  virtualOwners := by simpa using hinv.virtualOwners

theorem dependentOf_replace (hinv : g.Invariant E) (hu : g.uidToNode uid = some p)
    (hp : g.nodes p = some n) (hown : n.owners = []) (c : Node) {uid' : String}
    (h : g.DependentOf uid' d) : ((g.alloc c).2.write uid g.nextNode).DependentOf uid' d := by
  refine h.frame (fun dn hd => ⟨dn, ?_, rfl, rfl⟩) (fun dn hd hdu hr => ?_)
  · simp [(hinv.lt_nextNode hd).ne, hd]
  · -- the node replaced has no owners, so it is no one's dependent
    have hne : dn.identity.uid ≠ uid := by
      rintro rfl
      obtain rfl : d = p := Option.some.inj (hdu.symm.trans hu)
      rw [hp] at hd
      cases hd
      simp [hown] at hr
    simp [hne, hdu]

/-- A node with no owners replaced, under its UID, by a clone at the fresh address with its
dependents: the clone `markObserved` makes, and the one a virtual delete event makes. -/
theorem replace_invariant (hinv : g.Invariant E) (hu : g.uidToNode uid = some p)
    (hp : g.nodes p = some n) (hown : n.owners = []) (c : Node) (hid : c.identity.uid = uid)
    (hdeps : c.dependents = n.dependents) (hcown : c.owners = []) :
    ((g.alloc c).2.write uid g.nextNode).Invariant E where
  fresh q hq := (alloc_invariant hinv c fun _ => hcown).fresh q (by simpa using hq)
  stored u q hq := by
    obtain ⟨rfl, rfl⟩ | hq := uidToNode_write_eq_some hq
    · exact ⟨c, by simp, hid⟩
    · exact (alloc_invariant hinv c fun _ => hcown).stored u q hq
  dependents u q m hq hm d hd := by
    obtain ⟨rfl, rfl⟩ | hq := uidToNode_write_eq_some hq
    · simp only [write_nodes, alloc_nodes, Function.update_self, Option.some.injEq] at hm
      subst hm
      rw [hdeps] at hd
      exact (hinv.dependents _ p n hu hp d hd).imp_left (dependentOf_replace hinv hu hp hown c)
    · rw [alloc_uidToNode] at hq
      obtain ⟨n', hn', -⟩ := hinv.stored u q hq
      have hm' : g.nodes q = some m := by
        simpa [(hinv.lt_nextNode hn').ne] using hm
      exact (hinv.dependents u q m hq hm' d hd).imp_left (dependentOf_replace hinv hu hp hown c)
  virtualOwners := by simpa using (alloc_invariant hinv c fun _ => hcown).virtualOwners

/-- `uidToNode.Delete` of a stored node excuses it as a dependent of its owners. -/
theorem delete_invariant (hg : g.WellFormed) (hp : g.nodes p = some n)
    (hu : g.uidToNode n.identity.uid = some p) :
    (g.delete n.identity.uid).Invariant fun d uid => d = p ∧ ∃ r ∈ n.owners, r.uid = uid where
  fresh := hg.fresh
  stored u q hq := by
    rw [delete_uidToNode, Function.update_apply] at hq
    split_ifs at hq
    exact hg.stored u q hq
  dependents u q m hq hm d hd := by
    rw [delete_uidToNode, Function.update_apply] at hq
    split_ifs at hq
    obtain ⟨dn, hd', hdu, r, hr, hru⟩ := (hg.dependents u q m hq hm d hd).resolve_right id
    by_cases hne : dn.identity.uid = n.identity.uid
    · obtain rfl : d = p := Option.some.inj (hdu.symm.trans (hne ▸ hu))
      rw [hp] at hd'
      cases hd'
      exact .inr ⟨rfl, r, hr, hru⟩
    · exact .inl ⟨dn, hd', by simp [hne, hdu], r, hr, hru⟩
  virtualOwners := hg.virtualOwners

/-- New owners for an observed node excuse it as a dependent of the old owners it no longer
lists. -/
theorem setOwners_invariant (hg : g.WellFormed) (hp : g.nodes p = some n) (hv : n.virtual = false)
    (owners : List OwnerReference) :
    (g.setNode p { n with owners := owners }).Invariant fun d uid =>
      d = p ∧ (∃ r ∈ n.owners, r.uid = uid) ∧ ¬∃ r ∈ owners, r.uid = uid where
  fresh _ hq := fresh_setNode hg hp _ hq
  stored u q hq := stored_setNode hp { n with owners := owners } rfl (hg.stored u q hq)
  dependents u q m hq hm d hd := by
    obtain ⟨m', hm', hdeps⟩ := exists_dependents_of_setNode hp hm rfl
    obtain ⟨dn, hd', hdu, r, hr, hru⟩ :=
      (hg.dependents u q m' hq hm' d (hdeps ▸ hd)).resolve_right id
    by_cases hdp : d = p
    · subst hdp
      rw [hp] at hd'
      cases hd'
      by_cases hnew : ∃ r ∈ owners, r.uid = u
      · exact .inl ⟨{ n with owners := owners }, by simp, hdu, hnew⟩
      · exact .inr ⟨rfl, ⟨r, hr, hru⟩, hnew⟩
    · exact .inl ⟨dn, by simp [hdp, hd'], hdu, r, hr, hru⟩
  virtualOwners q m hm hv' := by
    obtain ⟨-, rfl⟩ | ⟨-, hm⟩ := nodes_setNode_eq_some hm
    · simp [hv] at hv'
    · exact hg.virtualOwners q m hm hv'

/-- `markObserved` in place keeps the invariant. -/
theorem markObserved_invariant (hinv : g.Invariant E) (hp : g.nodes p = some n) :
    (g.setNode p { n with virtual := false }).Invariant E where
  fresh _ hq := fresh_setNode hinv hp _ hq
  stored u q hq := stored_setNode hp { n with virtual := false } rfl (hinv.stored u q hq)
  dependents u q m hq hm d hd := by
    obtain ⟨m', hm', hdeps⟩ := exists_dependents_of_setNode hp hm rfl
    refine (hinv.dependents u q m' hq hm' d (hdeps ▸ hd)).imp_left fun h => h.frame ?_ ?_
    · intro dn hd'
      by_cases hdp : d = p
      · subst hdp
        rw [hp] at hd'
        cases hd'
        exact ⟨{ n with virtual := false }, by simp, rfl, rfl⟩
      · exact ⟨dn, by simp [hdp, hd'], rfl, rfl⟩
    · exact fun dn _ hdu _ => hdu
  virtualOwners q m hm hv := by
    obtain ⟨-, rfl⟩ | ⟨-, hm⟩ := nodes_setNode_eq_some hm
    · simp at hv
    · exact hinv.virtualOwners q m hm hv

theorem empty_wellFormed : Graph.empty.WellFormed where
  fresh _ _ := rfl
  stored _ _ h := nomatch h
  dependents _ _ _ h := nomatch h
  virtualOwners _ _ h := nomatch h

end Graph

open Kubernetes.GarbageCollector.Graph

variable {g : Graph} {E : ℕ → String → Prop} {p d : ℕ} {uid ns : String} {n : Node}
  {owner : OwnerReference} {owners : List OwnerReference} {event : Event}

/-! ### The owners' loops -/

theorem dependentOf_addDependentToOwner (hinv : g.Invariant E) (h : g.DependentOf uid d) :
    (addDependentToOwner p ns g owner).DependentOf uid d := by
  cases hu : g.uidToNode owner.uid with
  | some ownerNode =>
    rw [addDependentToOwner_of_some hu]
    exact dependentOf_modify _ h
  | none =>
    rw [addDependentToOwner_of_none hu]
    exact dependentOf_write_of_none (by simpa using hu) _ (dependentOf_alloc hinv _ h)

/-- One turn of `addDependentToOwners` keeps the invariant, for a node that lists the owner. -/
theorem addDependentToOwner_invariant (hinv : g.Invariant E) (hp : g.DependentOf owner.uid p) :
    (addDependentToOwner p ns g owner).Invariant E := by
  cases hu : g.uidToNode owner.uid with
  | some ownerNode =>
    rw [addDependentToOwner_of_some hu]
    refine modify_invariant hinv _ fun u m hop hm d hd => ?_
    rcases List.mem_insert_iff.mp hd with rfl | hd
    · obtain rfl : u = owner.uid := (hinv.uid_eq hop hm).symm.trans (hinv.uid_eq hu hm)
      exact .inl hp
    · exact hinv.dependents u ownerNode m hop hm d hd
  | none =>
    rw [addDependentToOwner_of_none hu]
    have halloc := alloc_invariant hinv (virtualOwner owner ns p) fun _ => rfl
    refine write_invariant (p := g.nextNode) (n := virtualOwner owner ns p) halloc (by simpa using hu)
      (by simp) rfl fun d hd => ?_
    obtain rfl : d = p := by simpa [virtualOwner] using hd
    exact dependentOf_write_of_none (by simpa using hu) _ (dependentOf_alloc hinv _ hp)

theorem addDependentToOwners_invariant (hinv : g.Invariant E) (hp : ∀ r ∈ owners, g.DependentOf r.uid p) :
    (addDependentToOwners g p ns owners).Invariant E := by
  induction owners generalizing g with
  | nil => exact hinv
  | cons owner owners ih =>
    exact ih (addDependentToOwner_invariant hinv (hp owner (by simp)))
      fun r hr => dependentOf_addDependentToOwner hinv (hp r (by simp [hr]))

/-- One turn of `removeDependentFromOwners` takes the node from the owner's dependents, and so
no longer excuses it there. -/
theorem removeDependentFromOwner_invariant
    (hinv : g.Invariant fun d uid => d = p ∧ ∃ r ∈ owner :: owners, r.uid = uid) :
    (removeDependentFromOwner p g owner).Invariant fun d uid => d = p ∧ ∃ r ∈ owners, r.uid = uid := by
  cases hu : g.uidToNode owner.uid with
  | some ownerNode =>
    rw [removeDependentFromOwner_of_some hu]
    refine (modify_invariant hinv _ fun u m hop hm d hd =>
      hinv.dependents u ownerNode m hop hm d (List.mem_of_mem_filter hd)).mono ?_
    rintro u q m d hq hm hd ⟨rfl, r, hr, hru⟩
    rw [modify_uidToNode] at hq
    rcases List.mem_cons.mp hr with rfl | hr
    · obtain rfl : q = ownerNode := Option.some.inj (hq.symm.trans (hru ▸ hu))
      obtain ⟨m', -, rfl⟩ := nodes_modify_eq_some hm
      simp at hd
    · exact .inr ⟨rfl, r, hr, hru⟩
  | none =>
    rw [removeDependentFromOwner_of_none hu]
    refine hinv.mono ?_
    rintro u q m d hq - - ⟨rfl, r, hr, hru⟩
    rcases List.mem_cons.mp hr with rfl | hr
    · simp [hru, hq] at hu
    · exact .inr ⟨rfl, r, hr, hru⟩

theorem removeDependentFromOwners_wellFormed
    (hinv : g.Invariant fun d uid => d = p ∧ ∃ r ∈ owners, r.uid = uid) :
    (removeDependentFromOwners g p owners).WellFormed := by
  induction owners generalizing g with
  | nil => exact hinv.mono fun _ _ _ _ _ _ _ h => by simp at h
  | cons owner owners ih => exact ih (removeDependentFromOwner_invariant hinv)

/-! ### The graph builder's operations -/

/-- `removeNode` of a stored node. -/
theorem removeNode_wellFormed (hg : g.WellFormed) (hp : g.nodes p = some n)
    (hu : g.uidToNode n.identity.uid = some p) : (removeNode g p).WellFormed := by
  simp only [removeNode, hp]
  exact removeDependentFromOwners_wellFormed (delete_invariant hg hp hu)

/-- `insertNode` of a new observed node, at the fresh address, under a UID not in the graph. -/
theorem insertNode_wellFormed (hg : g.WellFormed) (hu : g.uidToNode n.identity.uid = none)
    (hv : n.virtual = false) (hdeps : n.dependents = []) :
    (insertNode (g.alloc n).2 g.nextNode).WellFormed := by
  have halloc := alloc_invariant hg n fun h => by simp [hv] at h
  have hwrite := write_invariant (p := g.nextNode) (n := n) halloc (by simpa using hu) (by simp) rfl
    (by simp [hdeps])
  simp only [insertNode, alloc_nodes, Function.update_self]
  exact addDependentToOwners_invariant hwrite fun r hr => ⟨n, by simp, by simp, r, hr, rfl⟩

/-- An add or update event for an observed node stored in the graph. -/
theorem updateOwners_wellFormed (hg : g.WellFormed) (hu : g.uidToNode uid = some p)
    (hv : ∀ n, g.nodes p = some n → n.virtual = false) : (updateOwners g event p).WellFormed := by
  unfold updateOwners
  split
  · rename_i n hn
    obtain rfl : n.identity.uid = uid := hg.uid_eq hu hn
    rcases hdiff : referencesDiffs n.owners event.ownerReferences with ⟨added, removed, changed⟩
    dsimp only
    split_ifs
    · have hset := setOwners_invariant hg hn (hv n hn) event.ownerReferences
      have hadd : (addDependentToOwners _ p n.identity.ns added).Invariant _ := addDependentToOwners_invariant hset
        fun r hr => ⟨{ n with owners := event.ownerReferences }, by simp, hu, r,
          mem_referencesDiffs_added (by rw [hdiff]; exact hr), rfl⟩
      refine removeDependentFromOwners_wellFormed (hadd.mono ?_)
      rintro u - - - - - - ⟨rfl, hold, hnew⟩
      refine .inr ⟨rfl, ?_⟩
      simpa [hdiff] using exists_referencesDiffs_removed hold hnew
    · exact hg
  · exact hg

/-- A delete event for the node stored under the event's UID. -/
theorem deleteNode_wellFormed (hg : g.WellFormed) (hu : g.uidToNode event.uid = some p) :
    (deleteNode g event p).WellFormed := by
  rcases deleteNode_cases g event p with h | ⟨n, hn, h⟩ | ⟨n, r, hn, hv, hr, h⟩ <;> rw [h]
  · exact hg
  · exact removeNode_wellFormed hg hn (by rw [hg.uid_eq hu hn]; exact hu)
  · have hown := hg.virtualOwners p n hn hv
    exact replace_invariant hg (hr ▸ hu) hn hown _ rfl rfl hown

theorem observeNode_wellFormed (hg : g.WellFormed) (event : Event) : (observeNode g event).1.WellFormed := by
  rcases observeNode_cases g event with ⟨-, h⟩ | ⟨p, hu, ⟨h, -⟩ | ⟨n, hn, hv, h | h⟩⟩ <;> rw [h]
  · exact hg
  · exact hg
  · exact markObserved_invariant hg hn
  · have hown := hg.virtualOwners p n hn hv
    exact replace_invariant hg hu hn hown _ rfl rfl hown

theorem observeNode_of_none (h : (observeNode g event).2 = none) :
    observeNode g event = (g, none) ∧ g.uidToNode event.uid = none := by
  rcases observeNode_cases g event with ⟨hu, hobs⟩ | ⟨p, hu, ⟨hobs, -⟩ | ⟨n, hn, hv, hobs | hobs⟩⟩ <;>
    rw [hobs] at h ⊢
  · exact ⟨rfl, hu⟩
  all_goals cases h

/-- The node `observeNode` finds is stored under the event's UID, and is observed if the event is
not virtual. -/
theorem observeNode_of_some (h : (observeNode g event).2 = some p) :
    (observeNode g event).1.uidToNode event.uid = some p ∧
      ∀ n, (observeNode g event).1.nodes p = some n → event.virtual = false → n.virtual = false := by
  rcases observeNode_cases g event with ⟨hu, hobs⟩ | ⟨q, hu, ⟨hobs, hv⟩ | ⟨n, hn, hv, hobs | hobs⟩⟩ <;>
    rw [hobs] at h ⊢ <;> cases h
  · exact ⟨hu, hv⟩
  · refine ⟨hu, fun n' hn' _ => ?_⟩
    simp only [setNode_nodes, Function.update_self, Option.some.injEq] at hn'
    rw [← hn']
  · refine ⟨by simp, fun n' hn' _ => ?_⟩
    simp only [write_nodes, alloc_nodes, Function.update_self, Option.some.injEq] at hn'
    rw [← hn']

/-- **Each event keeps the graph's invariants**, if only delete events are virtual. -/
theorem processGraphChanges_wellFormed (hg : g.WellFormed)
    (hvirtual : event.virtual = true → event.eventType = .deleteEvent) :
    (processGraphChanges g event).WellFormed := by
  have hobs := observeNode_wellFormed hg event
  have hnv : event.eventType ≠ .deleteEvent → event.virtual = false := fun hne => by
    cases hv : event.virtual
    · rfl
    · exact absurd (hvirtual hv) hne
  unfold processGraphChanges
  rcases hres : observeNode g event with ⟨g1, _ | p⟩
  · -- no node of the event's UID: an add or update inserts a new one
    obtain ⟨h, hu⟩ := observeNode_of_none (by rw [hres])
    obtain rfl : g1 = g := (Prod.mk.inj (hres.symm.trans h)).1
    cases event.eventType
    · exact insertNode_wellFormed hg hu rfl rfl
    · exact insertNode_wellFormed hg hu rfl rfl
    · exact hg
  · obtain ⟨hu, hv⟩ := observeNode_of_some (by rw [hres])
    rw [hres] at hobs hu hv
    cases ht : event.eventType
    · exact updateOwners_wellFormed hobs hu fun n hn => hv n hn (hnv (by simp [ht]))
    · exact updateOwners_wellFormed hobs hu fun n hn => hv n hn (hnv (by simp [ht]))
    · exact deleteNode_wellFormed hobs hu

/-- The invariants hold after any sequence of events in which only delete events are virtual. -/
theorem runGraphChanges_wellFormed {events : List Event}
    (hevents : ∀ event ∈ events, event.virtual = true → event.eventType = .deleteEvent) :
    (runGraphChanges Graph.empty events).WellFormed := by
  suffices ∀ g : Graph, g.WellFormed → (runGraphChanges g events).WellFormed from
    this _ empty_wellFormed
  induction events with
  | nil => exact fun _ hg => hg
  | cons event events ih =>
    intro g hg
    exact ih (fun e he => hevents e (by simp [he])) _
      (processGraphChanges_wellFormed hg (hevents event (by simp)))

section Run

variable {events : List Event}
  (hevents : ∀ event ∈ events, event.virtual = true → event.eventType = .deleteEvent)
include hevents

/-- **Each dependent recorded is the node stored under its UID, and lists the owner.** -/
theorem runGraphChanges_dependentOf {uid : String} {p : ℕ} {m : Node}
    (hp : (runGraphChanges Graph.empty events).uidToNode uid = some p)
    (hm : (runGraphChanges Graph.empty events).nodes p = some m) (d : ℕ) (hd : d ∈ m.dependents) :
    ∃ dn, (runGraphChanges Graph.empty events).nodes d = some dn ∧
      (runGraphChanges Graph.empty events).uidToNode dn.identity.uid = some d ∧
      ∃ r ∈ dn.owners, r.uid = m.identity.uid := by
  have hg := runGraphChanges_wellFormed hevents
  rw [hg.uid_eq hp hm]
  exact (hg.dependents uid p m hp hm d hd).resolve_right id

/-- **Virtual nodes have no owners**: those stored in `uidToNode`, and the ones it no longer
holds. -/
theorem runGraphChanges_virtual_owners {p : ℕ} {m : Node}
    (hm : (runGraphChanges Graph.empty events).nodes p = some m) (hv : m.virtual = true) :
    m.owners = [] :=
  (runGraphChanges_wellFormed hevents).virtualOwners p m hm hv

end Run

end Kubernetes.GarbageCollector
