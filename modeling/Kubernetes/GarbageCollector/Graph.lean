import Mathlib

/-!
# The garbage collector's dependency graph

`pkg/controller/garbagecollector/graph_builder.go`, `processGraphChanges`, with `insertNode`,
`removeNode`, `addDependentToOwners`, `removeDependentFromOwners`, `referencesDiffs`,
`partitionDependents` and `getAlternateOwnerIdentity`, and the nodes of `graph.go`. The graph
builder keeps a node for each object it has seen, and a virtual node for each owner it has only
heard of. Each node lists its owners by UID and its dependents by pointer.

The nodes are a heap addressed by pointers: a clone is a new address, and `uidToNode` maps a UID
to the address of its node. The work queues, the absent owner cache, the events recorded and the
`beingDeleted` and `deletingDependents` flags are left out: nothing the graph holds reads them.

Each operation has its spec lemma here (`observeNode_cases`, `deleteNode_cases`, the equations of
the owners' loops, `exists_referencesDiffs_removed`); the invariants they keep are in
`GarbageCollector.Invariants`.

* `processGraphChanges_loses_dependent`: a virtual delete event for an observed owner, followed by
  an update of that owner from the informer, leaves an observed owner without its dependent.
-/

namespace Kubernetes.GarbageCollector

/-- `metav1.OwnerReference`. -/
structure OwnerReference where
  apiVersion : String
  kind : String
  name : String
  uid : String
  controller : Option Bool
  blockOwnerDeletion : Option Bool
  deriving DecidableEq, Repr

/-- `objectReference`: the coordinates of an owner reference, and a namespace. -/
structure ObjectReference where
  apiVersion : String
  kind : String
  name : String
  uid : String
  ns : String
  deriving DecidableEq, Repr

/-- `node`: its identity, its dependents' addresses, whether it is virtual, and its owners. -/
structure Node where
  identity : ObjectReference
  dependents : List ℕ
  virtual : Bool
  owners : List OwnerReference
  deriving DecidableEq, Repr

/-- The graph: the heap of nodes, the next fresh address, and `uidToNode`. -/
structure Graph where
  nodes : ℕ → Option Node
  nextNode : ℕ
  uidToNode : String → Option ℕ

/-- The graph before any event. -/
def Graph.empty : Graph := ⟨fun _ => none, 0, fun _ => none⟩

/-- `eventType`. -/
inductive EventType
  | addEvent
  | updateEvent
  | deleteEvent
  deriving DecidableEq, Repr

/-- An `event`: whether it is virtual, its type, and what `processGraphChanges` reads of its
object (the group version and kind, UID, name, namespace and owner references). -/
structure Event where
  virtual : Bool
  eventType : EventType
  apiVersion : String
  kind : String
  uid : String
  name : String
  ns : String
  ownerReferences : List OwnerReference
  deriving DecidableEq, Repr

/-! ## The heap -/

namespace Graph

/-- A node written at an address. -/
def setNode (g : Graph) (p : ℕ) (n : Node) : Graph :=
  { g with nodes := Function.update g.nodes p (some n) }

/-- A new node, at the next fresh address. -/
def alloc (g : Graph) (n : Node) : ℕ × Graph :=
  (g.nextNode, { g with nodes := Function.update g.nodes g.nextNode (some n), nextNode := g.nextNode + 1 })

/-- `uidToNode.Write`: the address stored under a UID. -/
def write (g : Graph) (uid : String) (p : ℕ) : Graph :=
  { g with uidToNode := Function.update g.uidToNode uid (some p) }

/-- `uidToNode.Delete`. -/
def delete (g : Graph) (uid : String) : Graph :=
  { g with uidToNode := Function.update g.uidToNode uid none }

/-- The node at an address changed by `f`. -/
def modify (g : Graph) (p : ℕ) (f : Node → Node) : Graph :=
  match g.nodes p with
  | some n => g.setNode p (f n)
  | none => g

/-- `addDependent`. -/
def addDependent (g : Graph) (p dependent : ℕ) : Graph :=
  g.modify p fun n => { n with dependents := n.dependents.insert dependent }

/-- `deleteDependent`. -/
def deleteDependent (g : Graph) (p dependent : ℕ) : Graph :=
  g.modify p fun n => { n with dependents := n.dependents.filter (· ≠ dependent) }

@[simp] theorem setNode_nodes (g : Graph) (p : ℕ) (n : Node) :
    (g.setNode p n).nodes = Function.update g.nodes p (some n) := rfl
@[simp] theorem setNode_uidToNode (g : Graph) (p : ℕ) (n : Node) :
    (g.setNode p n).uidToNode = g.uidToNode := rfl
@[simp] theorem setNode_nextNode (g : Graph) (p : ℕ) (n : Node) :
    (g.setNode p n).nextNode = g.nextNode := rfl

@[simp] theorem alloc_fst (g : Graph) (n : Node) : (g.alloc n).1 = g.nextNode := rfl
@[simp] theorem alloc_nodes (g : Graph) (n : Node) :
    (g.alloc n).2.nodes = Function.update g.nodes g.nextNode (some n) := rfl
@[simp] theorem alloc_uidToNode (g : Graph) (n : Node) : (g.alloc n).2.uidToNode = g.uidToNode := rfl
@[simp] theorem alloc_nextNode (g : Graph) (n : Node) : (g.alloc n).2.nextNode = g.nextNode + 1 := rfl

@[simp] theorem write_nodes (g : Graph) (uid : String) (p : ℕ) : (g.write uid p).nodes = g.nodes := rfl
@[simp] theorem write_uidToNode (g : Graph) (uid : String) (p : ℕ) :
    (g.write uid p).uidToNode = Function.update g.uidToNode uid (some p) := rfl
@[simp] theorem write_nextNode (g : Graph) (uid : String) (p : ℕ) :
    (g.write uid p).nextNode = g.nextNode := rfl

@[simp] theorem delete_nodes (g : Graph) (uid : String) : (g.delete uid).nodes = g.nodes := rfl
@[simp] theorem delete_uidToNode (g : Graph) (uid : String) :
    (g.delete uid).uidToNode = Function.update g.uidToNode uid none := rfl
@[simp] theorem delete_nextNode (g : Graph) (uid : String) : (g.delete uid).nextNode = g.nextNode := rfl

@[simp] theorem modify_uidToNode (g : Graph) (p : ℕ) (f : Node → Node) :
    (g.modify p f).uidToNode = g.uidToNode := by
  unfold modify
  split <;> rfl

@[simp] theorem modify_nextNode (g : Graph) (p : ℕ) (f : Node → Node) :
    (g.modify p f).nextNode = g.nextNode := by
  unfold modify
  split <;> rfl

theorem modify_nodes (g : Graph) (p : ℕ) (f : Node → Node) :
    (g.modify p f).nodes = Function.update g.nodes p ((g.nodes p).map f) := by
  unfold modify
  split
  · rename_i n hn
    simp [hn]
  · rename_i hn
    simp [hn]

end Graph

/-! ## The graph builder's helpers -/

/-- `identityFromEvent(event, accessor)`. -/
def identityFromEvent (event : Event) : ObjectReference :=
  ⟨event.apiVersion, event.kind, event.name, event.uid, event.ns⟩

/-- The virtual node `addDependentToOwners` creates for an owner not in the graph. -/
def virtualOwner (owner : OwnerReference) (ns : String) (dependent : ℕ) : Node :=
  ⟨⟨owner.apiVersion, owner.kind, owner.name, owner.uid, ns⟩, [dependent], true, []⟩

/-- One turn of `addDependentToOwners`' loop, for the node at `p` in namespace `ns`: the owner's node
gets it as a dependent, and an owner not in the graph gets a virtual node. -/
def addDependentToOwner (p : ℕ) (ns : String) (g : Graph) (owner : OwnerReference) : Graph :=
  match g.uidToNode owner.uid with
  | some ownerNode => g.addDependent ownerNode p
  | none =>
    let (ownerNode, g) := g.alloc (virtualOwner owner ns p)
    g.write owner.uid ownerNode

theorem addDependentToOwner_of_some {p : ℕ} {ns : String} {g : Graph} {owner : OwnerReference}
    {ownerNode : ℕ} (h : g.uidToNode owner.uid = some ownerNode) :
    addDependentToOwner p ns g owner = g.addDependent ownerNode p := by
  simp [addDependentToOwner, h]

theorem addDependentToOwner_of_none {p : ℕ} {ns : String} {g : Graph} {owner : OwnerReference}
    (h : g.uidToNode owner.uid = none) :
    addDependentToOwner p ns g owner = (g.alloc (virtualOwner owner ns p)).2.write owner.uid g.nextNode := by
  simp [addDependentToOwner, h]

/-- `addDependentToOwners(n, owners)`. -/
def addDependentToOwners (g : Graph) (p : ℕ) (ns : String) (owners : List OwnerReference) :
    Graph :=
  owners.foldl (addDependentToOwner p ns) g

/-- One turn of `removeDependentFromOwners`' loop. -/
def removeDependentFromOwner (p : ℕ) (g : Graph) (owner : OwnerReference) : Graph :=
  match g.uidToNode owner.uid with
  | some ownerNode => g.deleteDependent ownerNode p
  | none => g

theorem removeDependentFromOwner_of_some {p : ℕ} {g : Graph} {owner : OwnerReference} {ownerNode : ℕ}
    (h : g.uidToNode owner.uid = some ownerNode) :
    removeDependentFromOwner p g owner = g.deleteDependent ownerNode p := by
  simp [removeDependentFromOwner, h]

theorem removeDependentFromOwner_of_none {p : ℕ} {g : Graph} {owner : OwnerReference}
    (h : g.uidToNode owner.uid = none) : removeDependentFromOwner p g owner = g := by
  simp [removeDependentFromOwner, h]

/-- `removeDependentFromOwners(n, owners)`. -/
def removeDependentFromOwners (g : Graph) (p : ℕ) (owners : List OwnerReference) : Graph :=
  owners.foldl (removeDependentFromOwner p) g

/-- `insertNode(n)`. -/
def insertNode (g : Graph) (p : ℕ) : Graph :=
  match g.nodes p with
  | some n => addDependentToOwners (g.write n.identity.uid p) p n.identity.ns n.owners
  | none => g

/-- `removeNode(n)`. -/
def removeNode (g : Graph) (p : ℕ) : Graph :=
  match g.nodes p with
  | some n => removeDependentFromOwners (g.delete n.identity.uid) p n.owners
  | none => g

/-- The last reference of each UID in `old`, as `oldUIDToRef` holds it. -/
def oldUIDToRef (old : List OwnerReference) (uid : String) : Option OwnerReference :=
  old.reverse.find? fun ref => ref.uid = uid

/-- One turn of `referencesDiffs`' loop over the new references: the old UIDs not yet matched,
the added and the changed references. -/
def referencesDiffStep (old : List OwnerReference)
    (acc : List String × List OwnerReference × List (OwnerReference × OwnerReference))
    (value : OwnerReference) :
    List String × List OwnerReference × List (OwnerReference × OwnerReference) :=
  if value.uid ∈ acc.1 then
    let changed := match oldUIDToRef old value.uid with
      | some oldRef => if oldRef ≠ value then acc.2.2 ++ [(oldRef, value)] else acc.2.2
      | none => acc.2.2
    (acc.1.erase value.uid, acc.2.1, changed)
  else (acc.1, acc.2.1 ++ [value], acc.2.2)

/-- `referencesDiffs(old, new)`: the references added, removed and changed. -/
def referencesDiffs (old new : List OwnerReference) :
    List OwnerReference × List OwnerReference × List (OwnerReference × OwnerReference) :=
  let result := new.foldl (referencesDiffStep old) ((old.map OwnerReference.uid).dedup, [], [])
  (result.2.1, result.1.filterMap (oldUIDToRef old), result.2.2)

theorem referencesDiffStep_fst (old : List OwnerReference)
    (acc : List String × List OwnerReference × List (OwnerReference × OwnerReference))
    (value : OwnerReference) : (referencesDiffStep old acc value).1 = acc.1.erase value.uid := by
  unfold referencesDiffStep
  split_ifs with h
  · rfl
  · exact (List.erase_of_not_mem h).symm

/-- The old UIDs left after the loop are those no new reference has. -/
theorem mem_foldl_referencesDiffStep_fst (old new : List OwnerReference)
    (acc : List String × List OwnerReference × List (OwnerReference × OwnerReference))
    (hacc : acc.1.Nodup) (u : String) :
    u ∈ (new.foldl (referencesDiffStep old) acc).1 ↔ u ∈ acc.1 ∧ u ∉ new.map OwnerReference.uid := by
  induction new generalizing acc with
  | nil => simp
  | cons value new ih =>
    rw [List.foldl_cons, ih _ (by rw [referencesDiffStep_fst]; exact hacc.erase _),
      referencesDiffStep_fst, hacc.mem_erase_iff]
    simp only [List.map_cons, List.mem_cons, not_or]
    tauto

theorem mem_foldl_referencesDiffStep_added (old new : List OwnerReference)
    (acc : List String × List OwnerReference × List (OwnerReference × OwnerReference))
    (r : OwnerReference) (h : r ∈ (new.foldl (referencesDiffStep old) acc).2.1) :
    r ∈ acc.2.1 ∨ r ∈ new := by
  induction new generalizing acc with
  | nil => exact .inl h
  | cons value new ih =>
    rcases ih _ h with h | h
    · unfold referencesDiffStep at h
      split_ifs at h
      · exact .inl h
      · simp only [List.mem_append, List.mem_singleton] at h
        rcases h with h | rfl
        · exact .inl h
        · exact .inr (by simp)
    · exact .inr (by simp [h])

/-- Every added reference is a new one. -/
theorem mem_referencesDiffs_added {old new : List OwnerReference} {r : OwnerReference}
    (h : r ∈ (referencesDiffs old new).1) : r ∈ new :=
  (mem_foldl_referencesDiffStep_added old new _ r h).resolve_left (List.not_mem_nil)

theorem oldUIDToRef_of_mem {old : List OwnerReference} {u : String} (h : ∃ r ∈ old, r.uid = u) :
    ∃ r, oldUIDToRef old u = some r ∧ r.uid = u := by
  unfold oldUIDToRef
  cases hf : old.reverse.find? (fun ref => ref.uid = u) with
  | none =>
    obtain ⟨r, hr, hru⟩ := h
    have := List.find?_eq_none.mp hf r (List.mem_reverse.mpr hr)
    simp [hru] at this
  | some r => exact ⟨r, rfl, by simpa using List.find?_some hf⟩

/-- Every old UID that no new reference has is removed. -/
theorem exists_referencesDiffs_removed {old new : List OwnerReference} {u : String}
    (hold : ∃ r ∈ old, r.uid = u) (hnew : ¬∃ r ∈ new, r.uid = u) :
    ∃ r ∈ (referencesDiffs old new).2.1, r.uid = u := by
  obtain ⟨r, hr, hru⟩ := oldUIDToRef_of_mem hold
  have hmem : u ∈ (new.foldl (referencesDiffStep old) ((old.map OwnerReference.uid).dedup, [], [])).1 := by
    rw [mem_foldl_referencesDiffStep_fst _ _ _ (List.nodup_dedup _)]
    obtain ⟨r', hr', hr'u⟩ := hold
    exact ⟨List.mem_dedup.mpr (List.mem_map.mpr ⟨r', hr', hr'u⟩),
      fun h => hnew (by simpa using List.mem_map.mp h)⟩
  exact ⟨r, List.mem_filterMap.mpr ⟨u, hmem, hr⟩, hru⟩

/-- `ownerReferenceMatchesCoordinates(a, b)`. -/
def ownerReferenceMatchesCoordinates (a : OwnerReference) (b : ObjectReference) : Bool :=
  a.uid = b.uid ∧ a.name = b.name ∧ a.kind = b.kind ∧ a.apiVersion = b.apiVersion

/-- Whether `partitionDependents` finds a reference of the dependent matching the identity. -/
def foundMatch (dep : Node) (matchOwnerIdentity : ObjectReference) : Bool :=
  !(matchOwnerIdentity.ns ≠ "" ∧ matchOwnerIdentity.ns ≠ dep.identity.ns) ∧
    dep.owners.any fun ownerRef =>
      ownerRef.uid = matchOwnerIdentity.uid ∧ ownerReferenceMatchesCoordinates ownerRef matchOwnerIdentity

/-- Whether `partitionDependents` finds a reference of the dependent not matching the identity. -/
def foundMismatch (dep : Node) (matchOwnerIdentity : ObjectReference) : Bool :=
  (matchOwnerIdentity.ns ≠ "" ∧ matchOwnerIdentity.ns ≠ dep.identity.ns) ∨
    dep.owners.any fun ownerRef =>
      ownerRef.uid = matchOwnerIdentity.uid ∧ !ownerReferenceMatchesCoordinates ownerRef matchOwnerIdentity

/-- `partitionDependents(dependents, matchOwnerIdentity)`, over the dependents' addresses. -/
def partitionDependents (g : Graph) (dependents : List ℕ) (matchOwnerIdentity : ObjectReference) :
    List ℕ × List ℕ :=
  (dependents.filter fun dep => (g.nodes dep).any fun d => foundMatch d matchOwnerIdentity,
    dependents.filter fun dep => (g.nodes dep).any fun d => foundMismatch d matchOwnerIdentity)

/-- `referenceLessThan(a, b)`: by kind, API version, namespace, name and UID. -/
def referenceLessThan (a b : ObjectReference) : Bool :=
  if a.kind ≠ b.kind then a.kind < b.kind
  else if a.apiVersion ≠ b.apiVersion then a.apiVersion < b.apiVersion
  else if a.ns ≠ b.ns then a.ns < b.ns
  else if a.name ≠ b.name then a.name < b.name
  else if a.uid ≠ b.uid then a.uid < b.uid
  else false

/-- The state of `getAlternateOwnerIdentity`'s loop: the references seen, the first alternate, and
the first following the absent identity. -/
structure AlternateScan where
  seenAlternates : List ObjectReference
  first : Option ObjectReference
  firstFollowing : Option ObjectReference

/-- `first == nil || referenceLessThan(ref, *first)`: the least reference seen so far. -/
def keepLeast (ref : ObjectReference) : Option ObjectReference → Option ObjectReference
  | some first => if referenceLessThan ref first then some ref else some first
  | none => some ref

theorem mem_keepLeast {ref r : ObjectReference} {o : Option ObjectReference} (h : r ∈ keepLeast ref o) :
    r = ref ∨ r ∈ o := by
  cases o with
  | none => exact .inl (Option.some.inj h).symm
  | some first =>
    simp only [keepLeast] at h
    split_ifs at h
    · exact .inl (Option.some.inj h).symm
    · exact .inr h

theorem uid_of_mem_keepLeast {ref r : ObjectReference} {o : Option ObjectReference} {uid : String}
    (href : ref.uid = uid) (ho : ∀ r ∈ o, r.uid = uid) (h : r ∈ keepLeast ref o) : r.uid = uid := by
  rcases mem_keepLeast h with rfl | h
  exacts [href, ho r h]

/-- The identity a dependent's owner reference names, in the dependent's namespace, or in none
where the absent identity shows its kind to be cluster-scoped. -/
def alternateReference (verifiedAbsentIdentity : ObjectReference) (dep : Node)
    (ownerRef : OwnerReference) : ObjectReference :=
  let ref : ObjectReference :=
    ⟨ownerRef.apiVersion, ownerRef.kind, ownerRef.name, ownerRef.uid, dep.identity.ns⟩
  if verifiedAbsentIdentity.ns = "" ∧ ref.apiVersion = verifiedAbsentIdentity.apiVersion ∧
      ref.kind = verifiedAbsentIdentity.kind then { ref with ns := "" } else ref

theorem alternateReference_uid (verifiedAbsentIdentity : ObjectReference) (dep : Node)
    (ownerRef : OwnerReference) : (alternateReference verifiedAbsentIdentity dep ownerRef).uid = ownerRef.uid := by
  unfold alternateReference
  dsimp only
  split_ifs <;> rfl

/-- One owner reference of a dependent, in `getAlternateOwnerIdentity`'s loop. -/
def alternateStep (verifiedAbsentIdentity : ObjectReference) (dep : Node) (scan : AlternateScan)
    (ownerRef : OwnerReference) : AlternateScan :=
  if ownerRef.uid ≠ verifiedAbsentIdentity.uid then scan
  else if ownerReferenceMatchesCoordinates ownerRef verifiedAbsentIdentity ∧
      (verifiedAbsentIdentity.ns = "" ∨ verifiedAbsentIdentity.ns = dep.identity.ns) then
    scan
  else
    let ref := alternateReference verifiedAbsentIdentity dep ownerRef
    if ref ∈ scan.seenAlternates then scan
    else
      { seenAlternates := ref :: scan.seenAlternates
        first := keepLeast ref scan.first
        firstFollowing :=
          if referenceLessThan verifiedAbsentIdentity ref then keepLeast ref scan.firstFollowing
          else scan.firstFollowing }

/-- `getAlternateOwnerIdentity(deps, verifiedAbsentIdentity)`. -/
def getAlternateOwnerIdentity (deps : List Node) (verifiedAbsentIdentity : ObjectReference) :
    Option ObjectReference :=
  let scan := deps.foldl (fun scan dep => dep.owners.foldl (alternateStep verifiedAbsentIdentity dep) scan)
    ⟨[verifiedAbsentIdentity], none, none⟩
  scan.firstFollowing.or scan.first

/-- The identities a scan has chosen have the absent identity's UID. -/
def AlternateScan.SameUID (verifiedAbsentIdentity : ObjectReference) (scan : AlternateScan) : Prop :=
  (∀ r ∈ scan.first, r.uid = verifiedAbsentIdentity.uid) ∧
    ∀ r ∈ scan.firstFollowing, r.uid = verifiedAbsentIdentity.uid

theorem alternateStep_sameUID {verifiedAbsentIdentity : ObjectReference} {dep : Node}
    {scan : AlternateScan} (ownerRef : OwnerReference) (h : scan.SameUID verifiedAbsentIdentity) :
    (alternateStep verifiedAbsentIdentity dep scan ownerRef).SameUID verifiedAbsentIdentity := by
  by_cases hu : ownerRef.uid = verifiedAbsentIdentity.uid
  swap
  · simpa [alternateStep, hu] using h
  have href : (alternateReference verifiedAbsentIdentity dep ownerRef).uid = verifiedAbsentIdentity.uid :=
    (alternateReference_uid _ _ _).trans hu
  unfold alternateStep
  dsimp only
  split_ifs
  · exact h
  · exact h
  · exact h
  · exact ⟨fun r => uid_of_mem_keepLeast href h.1, fun r => uid_of_mem_keepLeast href h.2⟩
  · exact ⟨fun r => uid_of_mem_keepLeast href h.1, h.2⟩

theorem foldl_alternateStep_sameUID {verifiedAbsentIdentity : ObjectReference} {dep : Node}
    (owners : List OwnerReference) {scan : AlternateScan} (h : scan.SameUID verifiedAbsentIdentity) :
    (owners.foldl (alternateStep verifiedAbsentIdentity dep) scan).SameUID verifiedAbsentIdentity := by
  induction owners generalizing scan with
  | nil => exact h
  | cons ownerRef owners ih => exact ih (alternateStep_sameUID ownerRef h)

theorem AlternateScan.SameUID.uid_of_or {verifiedAbsentIdentity r : ObjectReference} {scan : AlternateScan}
    (h : scan.SameUID verifiedAbsentIdentity) (hr : scan.firstFollowing.or scan.first = some r) :
    r.uid = verifiedAbsentIdentity.uid := by
  cases hf : scan.firstFollowing with
  | some r' =>
    rw [hf, Option.some_or, Option.some.injEq] at hr
    exact hr ▸ h.2 r' hf
  | none =>
    rw [hf, Option.none_or] at hr
    exact h.1 r hr

/-- An alternate identity has the absent identity's UID. -/
theorem getAlternateOwnerIdentity_uid {deps : List Node} {verifiedAbsentIdentity r : ObjectReference}
    (h : getAlternateOwnerIdentity deps verifiedAbsentIdentity = some r) :
    r.uid = verifiedAbsentIdentity.uid := by
  have hscan : ∀ (deps : List Node) (scan : AlternateScan), scan.SameUID verifiedAbsentIdentity →
      (deps.foldl (fun scan dep => dep.owners.foldl (alternateStep verifiedAbsentIdentity dep) scan)
        scan).SameUID verifiedAbsentIdentity := by
    intro deps
    induction deps with
    | nil => exact fun _ h => h
    | cons dep deps ih => exact fun scan h => ih _ (foldl_alternateStep_sameUID dep.owners h)
  exact (hscan deps _ ⟨by simp, by simp⟩).uid_of_or h

/-! ## `processGraphChanges` -/

/-- The node of the event's UID, marked observed if a non-virtual event finds it virtual: in
place, or by a clone with the observed identity where the identities differ. -/
def observeNode (g : Graph) (event : Event) : Graph × Option ℕ :=
  match g.uidToNode event.uid with
  | none => (g, none)
  | some p =>
    match g.nodes p with
    | some n =>
      if !event.virtual ∧ n.virtual then
        let observedIdentity := identityFromEvent event
        if observedIdentity ≠ n.identity then
          let (clone, g) := g.alloc { n with identity := observedIdentity, virtual := false }
          (g.write event.uid clone, some clone)
        else (g.setNode p { n with virtual := false }, some p)
      else (g, some p)
    | none => (g, some p)

/-- What `observeNode` can do: find no node; find one and leave it, which a non-virtual event does
only to an observed node; or mark a virtual node observed, in place or by a clone stored under the
event's UID. -/
theorem observeNode_cases (g : Graph) (event : Event) :
    (g.uidToNode event.uid = none ∧ observeNode g event = (g, none)) ∨
    ∃ p, g.uidToNode event.uid = some p ∧
      ((observeNode g event = (g, some p) ∧
          ∀ n, g.nodes p = some n → event.virtual = false → n.virtual = false) ∨
        ∃ n, g.nodes p = some n ∧ n.virtual = true ∧
          (observeNode g event = (g.setNode p { n with virtual := false }, some p) ∨
            observeNode g event =
              ((g.alloc { n with identity := identityFromEvent event, virtual := false }).2.write
                event.uid g.nextNode, some g.nextNode))) := by
  unfold observeNode
  split
  · rename_i hu
    exact .inl ⟨hu, rfl⟩
  · rename_i p hu
    refine .inr ⟨p, hu, ?_⟩
    split
    · rename_i n hn
      dsimp only
      split_ifs with hobs
      · exact .inr ⟨n, hn, hobs.2, .inr rfl⟩
      · exact .inr ⟨n, hn, hobs.2, .inl rfl⟩
      · refine .inl ⟨rfl, fun n' hn' hv => ?_⟩
        rw [hn] at hn'
        cases hn'
        simpa [hv] using hobs
    · rename_i hn
      exact .inl ⟨rfl, fun n' hn' => by simp [hn] at hn'⟩

/-- An add or update event for a node in the graph: its owners are replaced, and it is added to
the new owners' dependents and removed from the old ones'. -/
def updateOwners (g : Graph) (event : Event) (p : ℕ) : Graph :=
  match g.nodes p with
  | some n =>
    let (added, removed, changed) := referencesDiffs n.owners event.ownerReferences
    if added ≠ [] ∨ removed ≠ [] ∨ changed ≠ [] then
      let g := g.setNode p { n with owners := event.ownerReferences }
      let g := addDependentToOwners g p n.identity.ns added
      removeDependentFromOwners g p removed
    else g
  | none => g

/-- A delete event for the node at `p`. A virtual delete keeps a virtual node that some dependents
know by other coordinates, replaced by a clone with one of them where the event names the node's
own; it keeps an observed node whose identity differs from the event's. Anything else removes
the node. -/
def deleteNode (g : Graph) (event : Event) (p : ℕ) : Graph :=
  match g.nodes p with
  | some n =>
    if event.virtual then
      let deletedIdentity := identityFromEvent event
      if n.virtual then
        let (_, nonmatchingDependents) := partitionDependents g n.dependents deletedIdentity
        if nonmatchingDependents ≠ [] then
          if n.identity = deletedIdentity then
            match getAlternateOwnerIdentity (nonmatchingDependents.filterMap g.nodes) deletedIdentity with
            | some replacementIdentity =>
              let (replacementNode, g) := g.alloc { n with identity := replacementIdentity }
              g.write replacementIdentity.uid replacementNode
            | none => g
          else g
        else removeNode g p
      else if n.identity ≠ deletedIdentity then g
      else removeNode g p
    else removeNode g p
  | none => g

/-- What `deleteNode` can do: keep the graph, remove the node, or replace a virtual node by a clone
with an identity of the same UID. -/
theorem deleteNode_cases (g : Graph) (event : Event) (p : ℕ) :
    deleteNode g event p = g ∨
    (∃ n, g.nodes p = some n ∧ deleteNode g event p = removeNode g p) ∨
    ∃ n r, g.nodes p = some n ∧ n.virtual = true ∧ r.uid = event.uid ∧
      deleteNode g event p = (g.alloc { n with identity := r }).2.write r.uid g.nextNode := by
  unfold deleteNode
  split
  · rename_i n hn
    dsimp only [partitionDependents]
    split_ifs with hvirtual hv hnonmatch hid hne
    · split
      · rename_i r hr
        exact .inr (.inr ⟨n, r, hn, hv, getAlternateOwnerIdentity_uid hr, rfl⟩)
      · exact .inl rfl
    · exact .inl rfl
    · exact .inr (.inl ⟨n, hn, rfl⟩)
    · exact .inl rfl
    · exact .inr (.inl ⟨n, hn, rfl⟩)
    · exact .inr (.inl ⟨n, hn, rfl⟩)
  · exact .inl rfl

/-- `processGraphChanges` for one event. -/
def processGraphChanges (g : Graph) (event : Event) : Graph :=
  let (g, existingNode) := observeNode g event
  match event.eventType, existingNode with
  | .deleteEvent, some p => deleteNode g event p
  | .deleteEvent, none => g
  | _, some p => updateOwners g event p
  | _, none =>
    let (newNode, g) := g.alloc ⟨identityFromEvent event, [], false, event.ownerReferences⟩
    insertNode g newNode

/-- The graph after a sequence of events. -/
def runGraphChanges (g : Graph) (events : List Event) : Graph :=
  events.foldl processGraphChanges g

/-! ## An observed owner without its dependent -/

/-- The reference of a pod to its replica set. -/
def replicaSetRef : OwnerReference := ⟨"apps/v1", "ReplicaSet", "web", "rs-uid", some true, some true⟩

/-- An event for the replica set. -/
def replicaSetEvent (virtual : Bool) (eventType : EventType) : Event :=
  ⟨virtual, eventType, "apps/v1", "ReplicaSet", "rs-uid", "web", "default", []⟩

/-- The pod's add event. -/
def podAdded : Event := ⟨false, .addEvent, "v1", "Pod", "pod-uid", "web-1", "default", [replicaSetRef]⟩

/-- **An observed owner loses its dependent.** The pod is added, with a virtual node for its
replica set, which the replica set's add event then marks observed. A virtual delete event for
the replica set removes its node. An update from the informer, queued before the deletion, adds
it back as a new node with no dependents. The pod still lists the replica set as its owner. -/
theorem processGraphChanges_loses_dependent :
    let g : Graph := runGraphChanges Graph.empty
      [podAdded, replicaSetEvent false .addEvent, replicaSetEvent true .deleteEvent,
        replicaSetEvent false .updateEvent]
    g.uidToNode "pod-uid" = some 0 ∧
      (g.nodes 0).map Node.owners = some [replicaSetRef] ∧
      g.uidToNode "rs-uid" = some 2 ∧
      g.nodes 2 = some ⟨⟨"apps/v1", "ReplicaSet", "web", "rs-uid", "default"⟩, [], false, []⟩ := by
  decide

end Kubernetes.GarbageCollector
