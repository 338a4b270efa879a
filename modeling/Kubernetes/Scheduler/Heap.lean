import Kubernetes.Foundations.GoHeap
import Kubernetes.Foundations.GoStd

/-!
# The scheduler's heap

`pkg/scheduler/internal/heap` keeps objects by key in a `container/heap`. Its `data` holds the
items by key, each with the index of its key in `queue`, and `queue` holds the keys in heap order
under `lessFunc`; `Swap` exchanges two keys and writes their new indices back into their items.
`Heap.Add` replaces the object of a key it holds and fixes its place, or pushes a new key;
`Delete` removes a key from its index; `Pop` takes the first key.

* `Data.Valid`: the queue holds each key once, the items are those of its keys, and an item's
  index is its key's position. Then `data` is a lawful `heap.Interface` (`Data.lawful`), and the
  algorithms of `GoHeap` apply to it.
* `Inv`: `Valid`, the heap order under `lessFunc`, and every object stored under its own key.
  Every operation keeps it and acts on `getByKey`, the map from keys to objects, as on a finite
  map (`Inv.add_spec`, `Inv.addIfNotPresent_spec`, `Inv.delete_spec`, `Inv.pop_spec`); `Pop` returns an object before
  which no object of the heap is.

`keyFunc` and `lessFunc`, fields of `data` that `New` sets once, are arguments here. `keyFunc` is
total: the scheduling queue's key function fails only on objects without metadata, and it is only
given pods. The metric recorder is left out.
-/

namespace Kubernetes.Scheduler.Heap

open GoHeap

/-- `heapItem`: an object and the index of its key in the queue. -/
structure HeapItem (V : Type*) where
  obj : V
  index : ℕ

/-- `data`: the items by key, and the keys in heap order. -/
structure Data (κ V : Type*) where
  items : κ → Option (HeapItem V)
  queue : List κ

variable {κ V : Type*} [DecidableEq κ]

namespace Data

/-- The data of `New`. -/
def empty : Data κ V := ⟨fun _ => none, []⟩

/-- `data.Less(i, j)`: the objects of the `i`-th and `j`-th keys compared by `lessFunc`, and
`false` when either key has no item. -/
def less (lessFunc : V → V → Bool) (d : Data κ V) (i j : ℕ) : Bool :=
  if i > d.queue.length ∨ j > d.queue.length then false
  else
    -- `[i]?` is `none` at `i = len`, where Go's indexing panics instead
    match d.queue[i]?.bind d.items, d.queue[j]?.bind d.items with
    | some itemi, some itemj => lessFunc itemi.obj itemj.obj
    | _, _ => false

/-- `item := h.items[key]; item.index = i`. -/
def setIndex (items : κ → Option (HeapItem V)) (key : κ) (i : ℕ) : κ → Option (HeapItem V) :=
  Function.update items key ((items key).map fun item => { item with index := i })

/-- `data.Swap(i, j)`: exchange two keys and record their new indices. -/
def swap (d : Data κ V) (i j : ℕ) : Data κ V :=
  let queue := d.queue.swap i j
  match queue[i]?, queue[j]? with
  | some ki, some kj => ⟨setIndex (setIndex d.items ki i) kj j, queue⟩
  | _, _ => ⟨d.items, queue⟩

/-- `data.Push(kv)`: the key's item, indexed at the end of the queue. -/
def push (d : Data κ V) (kv : κ × V) : Data κ V :=
  ⟨Function.update d.items kv.1 (some ⟨kv.2, d.queue.length⟩), d.queue ++ [kv.1]⟩

/-- `data.Pop()`: remove the last key and its item and return its object; `none` is Go's `nil`,
returned when the key has no item. -/
def pop (d : Data κ V) : Data κ V × Option V :=
  match d.queue.getLast? with
  -- Go indexes `queue[-1]` and panics; `heap.Pop` is never called on an empty heap
  | none => (d, none)
  | some key =>
    match d.items key with
    | none => (⟨d.items, d.queue.dropLast⟩, none)
    | some item => (⟨Function.update d.items key none, d.queue.dropLast⟩, some item.obj)

/-- `data.Peek()`: the object of the first key, `none` for an empty queue. -/
def peek (d : Data κ V) : Option V :=
  (d.queue.head?.bind d.items).map HeapItem.obj

/-- `data` as a `heap.Interface`. -/
def heapInterface (lessFunc : V → V → Bool) : Interface (Data κ V) (κ × V) (Option V) where
  len d := d.queue.length
  less := less lessFunc
  swap := swap
  push := push
  pop := pop

@[simp] theorem len_heapInterface (lessFunc : V → V → Bool) (d : Data κ V) :
    (heapInterface lessFunc).len d = d.queue.length := rfl

end Data

section Heap

variable (keyFunc : V → κ) (lessFunc : V → V → Bool)

/-- `Heap.Add(obj)`: replace the object of its key and fix its place, or push it. -/
def add (d : Data κ V) (obj : V) : Data κ V :=
  match d.items (keyFunc obj) with
  | some item =>
    fix (Data.heapInterface lessFunc)
      ⟨Function.update d.items (keyFunc obj) (some { item with obj := obj }), d.queue⟩ item.index
  | none => push (Data.heapInterface lessFunc) d (keyFunc obj, obj)

/-- `Heap.AddIfNotPresent(obj)`: push the object unless its key has an item. -/
def addIfNotPresent (d : Data κ V) (obj : V) : Data κ V :=
  match d.items (keyFunc obj) with
  | some _ => d
  | none => push (Data.heapInterface lessFunc) d (keyFunc obj, obj)

/-- `Heap.Update(obj)`, which is `Add`. -/
def update (d : Data κ V) (obj : V) : Data κ V := add keyFunc lessFunc d obj

/-- `Heap.Delete(obj)`: remove the key's item from its index, or fail. -/
def delete (d : Data κ V) (obj : V) : Except String (Data κ V) :=
  match d.items (keyFunc obj) with
  | some item => .ok (remove (Data.heapInterface lessFunc) d item.index).1
  | none => .error "object not found"

/-- The data after `Heap.Delete(obj)` for a caller that ignores its error: unchanged when the
key has no item. -/
def deleteIfPresent (d : Data κ V) (obj : V) : Data κ V :=
  match delete keyFunc lessFunc d obj with
  | .ok d' => d'
  | .error _ => d

/-- `Heap.Peek()`. -/
def peek (d : Data κ V) : Option V := d.peek

/-- `Heap.Pop()`: the first object, or an error when `data.Pop` returns `nil`; the data is changed
either way. -/
def pop (d : Data κ V) : Except String V × Data κ V :=
  match GoHeap.pop (Data.heapInterface lessFunc) d with
  | (d', some obj) => (.ok obj, d')
  | (d', none) => (.error "object was removed from heap data", d')

/-- `Heap.GetByKey(key)`: the key's object, if it has an item. -/
def getByKey (d : Data κ V) (key : κ) : Option V := (d.items key).map HeapItem.obj

/-- `Heap.Get(obj)`: the object stored under the key of `obj`. -/
def get (d : Data κ V) (obj : V) : Option V := getByKey d (keyFunc obj)

/-- `Heap.Len()`. -/
def len (d : Data κ V) : ℕ := d.queue.length

end Heap

/-! ## `data` is a lawful heap -/

namespace Data

/-- The representation invariant of `data`. -/
structure Valid (d : Data κ V) : Prop where
  nodup : d.queue.Nodup
  isSome_items : ∀ k, (d.items k).isSome ↔ k ∈ d.queue
  index : ∀ k item, d.items k = some item → d.queue[item.index]? = some k

omit [DecidableEq κ] in
theorem valid_empty : (empty : Data κ V).Valid :=
  ⟨List.nodup_nil, fun k => by simp [empty], fun k item h => by simp [empty] at h⟩

section Setters

variable {items : κ → Option (HeapItem V)} {key k : κ} {i : ℕ}

@[simp] theorem map_obj_setIndex :
    (setIndex items key i k).map HeapItem.obj = (items k).map HeapItem.obj := by
  unfold setIndex
  by_cases hk : k = key
  · subst hk
    cases items k <;> simp
  · rw [Function.update_of_ne hk]

@[simp] theorem isSome_setIndex : (setIndex items key i k).isSome = (items k).isSome := by
  rw [← Option.isSome_map (f := HeapItem.obj), map_obj_setIndex, Option.isSome_map]

theorem setIndex_self {item : HeapItem V} (h : items key = some item) :
    setIndex items key i key = some { item with index := i } := by
  simp [setIndex, h]

theorem setIndex_of_ne (hk : k ≠ key) : setIndex items key i k = items k := by
  simp [setIndex, hk]

end Setters

variable {d : Data κ V}

theorem swap_of_lt {i j : ℕ} (hi : i < d.queue.length) (hj : j < d.queue.length) :
    d.swap i j = ⟨setIndex (setIndex d.items d.queue[j] i) d.queue[i] j, d.queue.swap i j⟩ := by
  have hi' : (d.queue.swap i j)[i]? = some d.queue[j] := by
    rw [Go.getElem?_swap hi hj, Equiv.swap_apply_left, List.getElem?_eq_getElem hj]
  have hj' : (d.queue.swap i j)[j]? = some d.queue[i] := by
    rw [Go.getElem?_swap hi hj, Equiv.swap_apply_right, List.getElem?_eq_getElem hi]
  simp only [swap, hi', hj']

/-- Swaps move keys, never objects. -/
@[simp] theorem getByKey_swap (i j : ℕ) : getByKey (d.swap i j) = getByKey d := by
  funext k
  simp only [swap, getByKey]
  split <;> simp

@[simp] theorem getByKey_push (kv : κ × V) :
    getByKey (d.push kv) = Function.update (getByKey d) kv.1 (some kv.2) := by
  funext k
  by_cases hk : k = kv.1
  · subst hk
    simp [push, getByKey]
  · simp [push, getByKey, hk]

omit [DecidableEq κ] in
theorem Valid.isSome_of_getElem? (hv : d.Valid) {i : ℕ} {k : κ} (hk : d.queue[i]? = some k) :
    ∃ item, d.items k = some item :=
  Option.isSome_iff_exists.mp ((hv.isSome_items k).mpr (List.mem_of_getElem? hk))

omit [DecidableEq κ] in
/-- Two positions of one key are one position. -/
theorem Valid.index_eq (hv : d.Valid) {i : ℕ} {k : κ} {item : HeapItem V}
    (hk : d.queue[i]? = some k) (hitem : d.items k = some item) : item.index = i := by
  have hlt : i < d.queue.length := by
    by_contra h
    rw [List.getElem?_eq_none (by omega)] at hk
    cases hk
  exact ((List.getElem?_inj hlt hv.nodup).mp (hk.trans (hv.index k item hitem).symm)).symm

theorem Valid.swap (hv : d.Valid) {i j : ℕ} (hi : i < d.queue.length) (hj : j < d.queue.length) :
    (d.swap i j).Valid := by
  rw [swap_of_lt hi hj]
  have hq := Go.getElem?_swap hi hj
  refine ⟨(List.swap_perm d.queue i j).nodup_iff.mpr hv.nodup, fun k => ?_, fun k item h => ?_⟩
  · simp only [isSome_setIndex, (List.swap_perm d.queue i j).mem_iff]
    exact hv.isSome_items k
  · dsimp only at h ⊢
    have hsome : ∀ x ∈ d.queue, ∃ it, setIndex d.items d.queue[j] i x = some it := fun x hx =>
      Option.isSome_iff_exists.mp (by rw [isSome_setIndex]; exact (hv.isSome_items x).mpr hx)
    by_cases hki : k = d.queue[i]
    · subst hki
      obtain ⟨it, hit⟩ := hsome _ (List.getElem_mem hi)
      rw [setIndex_self hit] at h
      cases h
      show (d.queue.swap i j)[j]? = some d.queue[i]
      rw [hq, Equiv.swap_apply_right, List.getElem?_eq_getElem hi]
    · rw [setIndex_of_ne hki] at h
      by_cases hkj : k = d.queue[j]
      · subst hkj
        obtain ⟨it, hit⟩ := hv.isSome_of_getElem? (List.getElem?_eq_getElem hj)
        rw [setIndex_self hit] at h
        cases h
        show (d.queue.swap i j)[i]? = some d.queue[j]
        rw [hq, Equiv.swap_apply_left, List.getElem?_eq_getElem hj]
      · rw [setIndex_of_ne hkj] at h
        have hidx := hv.index k item h
        have hne_i : item.index ≠ i := fun he => hki (by
          rw [he, List.getElem?_eq_getElem hi] at hidx
          exact (Option.some.inj hidx).symm)
        have hne_j : item.index ≠ j := fun he => hkj (by
          rw [he, List.getElem?_eq_getElem hj] at hidx
          exact (Option.some.inj hidx).symm)
        rw [hq, Equiv.swap_apply_of_ne_of_ne hne_i hne_j, hidx]

theorem Valid.push (hv : d.Valid) {kv : κ × V} (hkv : kv.1 ∉ d.queue) : (d.push kv).Valid := by
  refine ⟨List.nodup_append.mpr ⟨hv.nodup, by simp, ?_⟩, fun k => ?_, fun k item h => ?_⟩
  · intro a ha b hb hab
    rw [List.mem_singleton] at hb
    rw [← hb, ← hab] at hkv
    exact hkv ha
  · by_cases hk : k = kv.1
    · subst hk
      simp [Data.push]
    · simp only [Data.push, Function.update_of_ne hk, List.mem_append, List.mem_singleton, hk,
        or_false]
      exact hv.isSome_items k
  · by_cases hk : k = kv.1
    · subst hk
      simp only [Data.push, Function.update_self, Option.some.injEq] at h
      subst h
      exact List.getElem?_concat_length
    · simp only [Data.push, Function.update_of_ne hk] at h
      have hidx := hv.index k item h
      have hlt : item.index < d.queue.length := by
        by_contra hc
        rw [List.getElem?_eq_none (by omega)] at hidx
        cases hidx
      show (d.queue ++ [kv.1])[item.index]? = some k
      rw [List.getElem?_append_left hlt, hidx]

omit [DecidableEq κ] in
/-- The last key and its item. -/
theorem Valid.getLast (hv : d.Valid) (hpos : 0 < d.queue.length) :
    ∃ key item, d.queue.getLast? = some key ∧ d.items key = some item ∧
      item.index = d.queue.length - 1 := by
  have hlast : d.queue[d.queue.length - 1]? = some d.queue[d.queue.length - 1] :=
    List.getElem?_eq_getElem (by omega)
  obtain ⟨item, hitem⟩ := hv.isSome_of_getElem? hlast
  exact ⟨_, item, by rw [List.getLast?_eq_getElem?, hlast], hitem, hv.index_eq hlast hitem⟩

theorem pop_of_getLast {key : κ} {item : HeapItem V} (hkey : d.queue.getLast? = some key)
    (hitem : d.items key = some item) :
    d.pop = (⟨Function.update d.items key none, d.queue.dropLast⟩, some item.obj) := by
  simp only [pop, hkey, hitem]

theorem Valid.pop (hv : d.Valid) (hpos : 0 < d.queue.length) : d.pop.1.Valid := by
  obtain ⟨key, item, hkey, hitem, -⟩ := hv.getLast hpos
  rw [pop_of_getLast hkey hitem]
  have hlast : d.queue[d.queue.length - 1]? = some key := by
    rw [← List.getLast?_eq_getElem?, hkey]
  refine ⟨hv.nodup.sublist (List.dropLast_sublist _), fun k => ?_, fun k it h => ?_⟩
  · dsimp only
    obtain ⟨ys, hys⟩ := List.getLast?_eq_some_iff.mp hkey
    have hnd := hv.nodup
    rw [hys] at hnd
    have hkey_ys : key ∉ ys := by
      intro hm
      exact (List.nodup_append.mp hnd).2.2 key hm key (List.mem_singleton_self _) rfl
    have hmem := hv.isSome_items k
    rw [hys, List.mem_append, List.mem_singleton] at hmem
    rw [hys, List.dropLast_concat]
    by_cases hk : k = key
    · subst hk
      simp [hkey_ys]
    · rw [Function.update_of_ne hk, hmem]
      simp [hk]
  · dsimp only at h ⊢
    by_cases hk : k = key
    · subst hk
      simp at h
    · rw [Function.update_of_ne hk] at h
      have hidx := hv.index k it h
      have hlt : it.index < d.queue.length - 1 := by
        have hne : it.index ≠ d.queue.length - 1 := fun he => hk (by
          rw [he, hlast] at hidx
          exact (Option.some.inj hidx).symm)
        have : it.index < d.queue.length := by
          by_contra hc
          rw [List.getElem?_eq_none (by omega)] at hidx
          cases hidx
        omega
      rw [List.getElem?_dropLast, if_pos hlt, hidx]

/-- Popping the last key removes its object and returns it. -/
theorem Valid.getByKey_pop (hv : d.Valid) (hpos : 0 < d.queue.length) :
    ∃ key, d.queue.getLast? = some key ∧
      getByKey d.pop.1 = Function.update (getByKey d) key none ∧ d.pop.2 = getByKey d key := by
  obtain ⟨key, item, hkey, hitem, -⟩ := hv.getLast hpos
  refine ⟨key, hkey, ?_, ?_⟩
  · funext k
    rw [pop_of_getLast hkey hitem]
    by_cases hk : k = key
    · subst hk
      simp [getByKey]
    · simp [getByKey, hk]
  · rw [pop_of_getLast hkey hitem]
    simp [getByKey, hitem]

variable [Inhabited V]

/-- The object of the `i`-th key. -/
def objAt (d : Data κ V) (i : ℕ) : V :=
  (d.queue[i]?.bind (getByKey d)).getD default

omit [DecidableEq κ] in
theorem objAt_eq {i : ℕ} {k : κ} {item : HeapItem V} (hk : d.queue[i]? = some k)
    (hitem : d.items k = some item) : d.objAt i = item.obj := by
  simp [objAt, getByKey, hk, hitem]

omit [DecidableEq κ] in
/-- Every object stored is the object of its key's position. -/
theorem Valid.exists_objAt (hv : d.Valid) {k : κ} {v : V} (h : getByKey d k = some v) :
    ∃ i < d.queue.length, d.queue[i]? = some k ∧ d.objAt i = v := by
  obtain ⟨item, hitem, rfl⟩ := Option.map_eq_some_iff.mp h
  have hidx := hv.index k item hitem
  have hlt : item.index < d.queue.length := by
    by_contra hc
    rw [List.getElem?_eq_none (by omega)] at hidx
    cases hidx
  exact ⟨item.index, hlt, hidx, objAt_eq hidx hitem⟩

omit [DecidableEq κ] in
theorem Valid.getByKey_objAt (hv : d.Valid) {i : ℕ} (hi : i < d.queue.length) :
    getByKey d d.queue[i] = some (d.objAt i) := by
  obtain ⟨item, hitem⟩ := hv.isSome_of_getElem? (List.getElem?_eq_getElem hi)
  rw [objAt_eq (List.getElem?_eq_getElem hi) hitem]
  simp [getByKey, hitem]

/-- `data` is a lawful `heap.Interface` for the order `lessFunc`, pushing only new keys. -/
theorem lawful (lessFunc : V → V → Bool) :
    Lawful (heapInterface lessFunc : Interface (Data κ V) (κ × V) (Option V)) Valid objAt lessFunc
      Prod.snd some
      (fun d kv => kv.1 ∉ d.queue) where
  less d i j hv hi hj := by
    obtain ⟨itemi, hitemi⟩ := hv.isSome_of_getElem? (List.getElem?_eq_getElem hi)
    obtain ⟨itemj, hitemj⟩ := hv.isSome_of_getElem? (List.getElem?_eq_getElem hj)
    have hi' : ¬ (i > d.queue.length ∨ j > d.queue.length) := by
      change i < d.queue.length at hi
      change j < d.queue.length at hj
      omega
    simp only [heapInterface, less, hi', if_false, List.getElem?_eq_getElem hi,
      List.getElem?_eq_getElem hj, Option.bind_some, hitemi, hitemj]
    rw [objAt_eq (List.getElem?_eq_getElem hi) hitemi, objAt_eq (List.getElem?_eq_getElem hj) hitemj]
  swap_valid d i j hv hi hj := hv.swap hi hj
  len_swap d i j _ hi hj := by
    change (d.swap i j).queue.length = d.queue.length
    rw [swap_of_lt hi hj, List.length_swap]
  get_swap d i j k _ hi hj hk := by
    change (d.swap i j).objAt k = d.objAt _
    have hq : (d.swap i j).queue = d.queue.swap i j := by rw [swap_of_lt hi hj]
    simp only [objAt, hq, Go.getElem?_swap hi hj, getByKey_swap]
  push_valid d kv hv hkv := hv.push hkv
  len_push d kv _ _ := by
    change (d.push kv).queue.length = d.queue.length + 1
    simp [Data.push]
  get_push d kv k hv hkv hk := by
    change (d.push kv).objAt k = if k < d.queue.length then d.objAt k else kv.2
    split
    · rename_i hlt
      obtain ⟨item, hitem⟩ := hv.isSome_of_getElem? (List.getElem?_eq_getElem hlt)
      have hne : d.queue[k] ≠ kv.1 := fun he => hkv (he ▸ List.getElem_mem hlt)
      have hq : (d.push kv).queue[k]? = some d.queue[k] := by
        show (d.queue ++ [kv.1])[k]? = _
        rw [List.getElem?_append_left hlt, List.getElem?_eq_getElem hlt]
      have hi : (d.push kv).items d.queue[k] = some item := by
        show Function.update d.items kv.1 _ d.queue[k] = _
        rw [Function.update_of_ne hne, hitem]
      rw [objAt_eq (List.getElem?_eq_getElem hlt) hitem, objAt_eq hq hi]
    · have hk' : k = d.queue.length := by change k ≤ d.queue.length at hk; omega
      subst hk'
      have hq : (d.push kv).queue[d.queue.length]? = some kv.1 := List.getElem?_concat_length
      have hi : (d.push kv).items kv.1 = some ⟨kv.2, d.queue.length⟩ := Function.update_self ..
      exact objAt_eq hq hi
  pop_valid d hv hpos := hv.pop hpos
  len_pop d _ _ := by
    change d.pop.1.queue.length = d.queue.length - 1
    unfold pop
    split
    · simp_all
    · split <;> simp
  get_pop d k hv hk := by
    change d.pop.1.objAt k = d.objAt k
    change k + 1 < d.queue.length at hk
    obtain ⟨key, item, hkey, hitem, -⟩ := hv.getLast (by omega)
    obtain ⟨it, hit⟩ := hv.isSome_of_getElem? (List.getElem?_eq_getElem (by omega : k < _))
    have hne : d.queue[k] ≠ key := by
      intro he
      have := hv.index_eq (List.getElem?_eq_getElem (by omega : k < _)) hit
      rw [he, hitem] at hit
      cases hit
      rw [List.getLast?_eq_getElem?] at hkey
      have h2 := hv.index_eq hkey hitem
      omega
    rw [pop_of_getLast hkey hitem, objAt_eq (List.getElem?_eq_getElem (by omega)) hit]
    have hq : d.queue.dropLast[k]? = some d.queue[k] := by
      rw [List.getElem?_dropLast, if_pos (by omega), List.getElem?_eq_getElem]
    have hi : Function.update d.items key none d.queue[k] = some it := by
      rw [Function.update_of_ne hne, hit]
    exact objAt_eq (d := ⟨_, _⟩) hq hi
  pop_out d hv hpos := by
    change d.pop.2 = some (d.objAt (d.queue.length - 1))
    obtain ⟨key, item, hkey, hitem, -⟩ := hv.getLast hpos
    rw [pop_of_getLast hkey hitem, objAt_eq (by rw [← List.getLast?_eq_getElem?]; exact hkey) hitem]

/-! ### What the algorithms do to the keys and objects -/

variable (lessFunc : V → V → Bool)

omit [Inhabited V] in
/-- Every algorithm only swaps, and a swap moves keys, never objects. -/
theorem swap_keeps_getByKey (d₀ : Data κ V) : ∀ (t : Data κ V) a b, t.Valid → a < n → b < n →
    n ≤ t.queue.length → getByKey t = getByKey d₀ → getByKey (t.swap a b) = getByKey d₀ :=
  fun _ a b _ _ _ _ ht => (getByKey_swap a b).trans ht

theorem Valid.repair (hv : d.Valid) {i n : ℕ} (hn : n ≤ d.queue.length) (hi : i < n) :
    let t := repair (heapInterface lessFunc) d i n
    t.Valid ∧ t.queue.length = d.queue.length ∧ getByKey t = getByKey d :=
  repair_preserves (lawful lessFunc) _ (swap_keeps_getByKey d) hv hn hi rfl

theorem Valid.push_up (hv : d.Valid) {kv : κ × V} (hkv : kv.1 ∉ d.queue) :
    let t := GoHeap.push (heapInterface lessFunc) d kv
    t.Valid ∧ t.queue.length = d.queue.length + 1 ∧
      getByKey t = Function.update (getByKey d) kv.1 (some kv.2) := by
  have hv' := hv.push hkv
  have hlen : (d.push kv).queue.length = d.queue.length + 1 := by simp [Data.push]
  obtain ⟨hv'', hlen', hget⟩ := up_preserves (lawful lessFunc) _ (swap_keeps_getByKey (d.push kv))
    (j := (d.push kv).queue.length - 1) hv' (Nat.le_refl _) (by simp only [len_heapInterface]; omega)
    rfl
  exact ⟨hv'', hlen'.trans hlen, hget.trans (getByKey_push kv)⟩

/-- `heap.Pop` and `heap.Remove` end with `data.Pop` of a valid data with the same objects. -/
theorem Valid.pop_eq (hv : d.Valid) (hpos : 0 < d.queue.length) :
    ∃ t : Data κ V, t.Valid ∧ t.queue.length = d.queue.length ∧ getByKey t = getByKey d ∧
      GoHeap.pop (heapInterface lessFunc) d = t.pop := by
  have hn : d.queue.length - 1 < d.queue.length := by omega
  have hvs := hv.swap hpos hn
  have hlens : (d.swap 0 (d.queue.length - 1)).queue.length = d.queue.length := by
    rw [swap_of_lt hpos hn, List.length_swap]
  obtain ⟨hvt, hlent, hgett, -⟩ := downLoop_preserves (lawful lessFunc) _
    (swap_keeps_getByKey (d.swap 0 (d.queue.length - 1))) (n := d.queue.length - 1) (i := 0) hvs
    (by simp only [len_heapInterface]; omega) rfl
  exact ⟨_, hvt, hlent.trans hlens, hgett.trans (getByKey_swap _ _), rfl⟩

theorem Valid.remove_eq (hv : d.Valid) {i : ℕ} (hi : i < d.queue.length) :
    ∃ t : Data κ V, t.Valid ∧ t.queue.length = d.queue.length ∧ getByKey t = getByKey d ∧
      remove (heapInterface lessFunc) d i = t.pop := by
  unfold remove
  by_cases hne : (heapInterface lessFunc).len d - 1 ≠ i
  · rw [if_pos hne]
    have hne' : d.queue.length - 1 ≠ i := hne
    have hn : d.queue.length - 1 < d.queue.length := by omega
    have hvs := hv.swap hi hn
    have hlens : (d.swap i (d.queue.length - 1)).queue.length = d.queue.length := by
      rw [swap_of_lt hi hn, List.length_swap]
    obtain ⟨hvt, hlent, hgett⟩ := hvs.repair lessFunc (n := d.queue.length - 1) (i := i)
      (by omega) (by omega)
    exact ⟨_, hvt, hlent.trans hlens, hgett.trans (getByKey_swap _ _), rfl⟩
  · rw [if_neg hne]
    exact ⟨d, hv, rfl, rfl, rfl⟩

end Data

/-! ## The operations keep the heap -/

section Operations

variable [Inhabited V] (keyFunc : V → κ) (lessFunc : V → V → Bool)

/-- The invariant of a heap: its data is valid, its objects are in heap order under `lessFunc`,
and each object is stored under its own key. -/
structure Inv (d : Data κ V) : Prop where
  valid : d.Valid
  ordered : HeapOrdered lessFunc d.objAt d.queue.length
  keyed : ∀ k v, getByKey d k = some v → keyFunc v = k

omit [DecidableEq κ] in
theorem inv_empty : Inv keyFunc lessFunc (Data.empty : Data κ V) :=
  ⟨Data.valid_empty, fun k hk hkn => by simp [Data.empty] at hkn, fun k v h => by
    simp [getByKey, Data.empty] at h⟩

omit [Inhabited V] in
theorem keyed_update {g : κ → Option V} (hg : ∀ k v, g k = some v → keyFunc v = k) {obj : V} :
    ∀ k v, Function.update g (keyFunc obj) (some obj) k = some v → keyFunc v = k := by
  intro k v h
  by_cases hk : k = keyFunc obj
  · subst hk
    simp only [Function.update_self, Option.some.injEq] at h
    rw [← h]
  · rw [Function.update_of_ne hk] at h
    exact hg k v h

omit [Inhabited V] in
theorem keyed_erase {g : κ → Option V} (hg : ∀ k v, g k = some v → keyFunc v = k) {key : κ} :
    ∀ k v, Function.update g key none k = some v → keyFunc v = k := by
  intro k v h
  by_cases hk : k = key
  · subst hk
    simp at h
  · rw [Function.update_of_ne hk] at h
    exact hg k v h

variable {keyFunc lessFunc} {d : Data κ V}

omit [DecidableEq κ] in
/-- A key of the heap is a key of the queue. -/
theorem Inv.getByKey_eq_none (hd : Inv keyFunc lessFunc d) {k : κ} :
    getByKey d k = none ↔ k ∉ d.queue := by
  rw [← hd.valid.isSome_items k]
  simp [getByKey]

omit [DecidableEq κ] in
/-- `Heap.Peek` is the object `Heap.Pop` returns. -/
theorem Inv.peek_spec (hd : Inv keyFunc lessFunc d) :
    peek d = if 0 < d.queue.length then some (d.objAt 0) else none := by
  split
  · rename_i hpos
    obtain ⟨item, hitem⟩ := hd.valid.isSome_of_getElem? (List.getElem?_eq_getElem hpos)
    rw [Data.objAt_eq (List.getElem?_eq_getElem hpos) hitem]
    simp [peek, Data.peek, List.head?_eq_getElem?, List.getElem?_eq_getElem hpos, hitem]
  · rename_i hzero
    have : d.queue = [] := List.eq_nil_of_length_eq_zero (by omega)
    simp [peek, Data.peek, this]

section Order

variable (hw : IsStrictWeakOrder V (fun a b => lessFunc a b = true))
include hw

/-- Pushing a new key. -/
theorem Inv.push_spec (hd : Inv keyFunc lessFunc d) {obj : V} (hnew : d.items (keyFunc obj) = none) :
    Inv keyFunc lessFunc (GoHeap.push (Data.heapInterface lessFunc) d (keyFunc obj, obj)) ∧
      getByKey (GoHeap.push (Data.heapInterface lessFunc) d (keyFunc obj, obj)) =
        Function.update (getByKey d) (keyFunc obj) (some obj) := by
  have hkv : (keyFunc obj, obj).1 ∉ d.queue := by
    rw [← hd.valid.isSome_items]
    simp [hnew]
  obtain ⟨hv, hlen, hget⟩ := hd.valid.push_up lessFunc hkv
  have ho := push_ordered (Data.lawful lessFunc) hw (x := (keyFunc obj, obj)) hd.valid hkv hd.ordered
  refine ⟨⟨hv, ?_, ?_⟩, hget⟩
  · rw [hlen]
    exact ho
  · rw [hget]
    exact keyed_update keyFunc hd.keyed

/-- **`Heap.Add` keeps the heap and stores the object under its key.** -/
theorem Inv.add_spec (hd : Inv keyFunc lessFunc d) (obj : V) :
    Inv keyFunc lessFunc (add keyFunc lessFunc d obj) ∧
      getByKey (add keyFunc lessFunc d obj) =
        Function.update (getByKey d) (keyFunc obj) (some obj) := by
  unfold add
  split
  · rename_i item hitem
    let d₁ : Data κ V :=
      ⟨Function.update d.items (keyFunc obj) (some { item with obj := obj }), d.queue⟩
    show Inv keyFunc lessFunc (repair (Data.heapInterface lessFunc) d₁ item.index d.queue.length) ∧
      getByKey (repair (Data.heapInterface lessFunc) d₁ item.index d.queue.length) = _
    have hidx := hd.valid.index _ _ hitem
    have hlt : item.index < d.queue.length := by
      by_contra hc
      rw [List.getElem?_eq_none (by omega)] at hidx
      cases hidx
    have hv₁ : d₁.Valid := by
      refine ⟨hd.valid.nodup, fun k => ?_, fun k it h => ?_⟩
      · by_cases hk : k = keyFunc obj
        · subst hk
          simp [d₁, ← hd.valid.isSome_items, hitem]
        · simp only [d₁, Function.update_of_ne hk]
          exact hd.valid.isSome_items k
      · by_cases hk : k = keyFunc obj
        · subst hk
          simp only [d₁, Function.update_self, Option.some.injEq] at h
          rw [← h]
          exact hidx
        · simp only [d₁, Function.update_of_ne hk] at h
          exact hd.valid.index k it h
    have hget₁ : getByKey d₁ = Function.update (getByKey d) (keyFunc obj) (some obj) := by
      funext k
      by_cases hk : k = keyFunc obj
      · subst hk
        simp [d₁, getByKey]
      · simp [d₁, getByKey, hk]
    have hsame : ∀ p < d.queue.length, p ≠ item.index → d₁.objAt p = d.objAt p := by
      intro p hp hpi
      have hne : d.queue[p] ≠ keyFunc obj := fun he => hpi
        ((List.getElem?_inj hp hd.valid.nodup).mp (by rw [List.getElem?_eq_getElem hp, he, hidx]))
      simp only [Data.objAt, d₁, hget₁, List.getElem?_eq_getElem hp, Option.bind_some,
        Function.update_of_ne hne]
    have o := hd.ordered.fixOrder hw hsame
    obtain ⟨hv₂, hlen₂, hget₂⟩ := hv₁.repair lessFunc (n := d.queue.length) (Nat.le_refl _) hlt
    refine ⟨⟨hv₂, ?_, ?_⟩, hget₂.trans hget₁⟩
    · rw [hlen₂]
      exact fix_ordered (Data.lawful lessFunc) hw hv₁ hlt o
    · rw [hget₂, hget₁]
      exact keyed_update keyFunc hd.keyed
  · rename_i hnew
    exact hd.push_spec hw hnew

/-- `Heap.AddIfNotPresent` keeps the heap, and stores the object when its key is new. -/
theorem Inv.addIfNotPresent_spec (hd : Inv keyFunc lessFunc d) (obj : V) :
    Inv keyFunc lessFunc (addIfNotPresent keyFunc lessFunc d obj) ∧
      getByKey (addIfNotPresent keyFunc lessFunc d obj) =
        if (getByKey d (keyFunc obj)).isSome then getByKey d
        else Function.update (getByKey d) (keyFunc obj) (some obj) := by
  unfold addIfNotPresent
  split
  · rename_i item hitem
    simp [getByKey, hitem, hd]
  · rename_i hnew
    simpa [getByKey, hnew] using hd.push_spec hw hnew

/-- **`Heap.Delete` keeps the heap and removes the key**, or fails when the key has no object. -/
theorem Inv.delete_spec (hd : Inv keyFunc lessFunc d) (obj : V) :
    match delete keyFunc lessFunc d obj with
    | .ok d' => Inv keyFunc lessFunc d' ∧ (getByKey d (keyFunc obj)).isSome ∧
        getByKey d' = Function.update (getByKey d) (keyFunc obj) none
    | .error e => getByKey d (keyFunc obj) = none ∧ e = "object not found" := by
  unfold delete
  cases hitem : d.items (keyFunc obj) with
  | none => exact ⟨by simp [getByKey, hitem], rfl⟩
  | some item =>
    have hidx := hd.valid.index _ _ hitem
    have hlt : item.index < d.queue.length := by
      by_contra hc
      rw [List.getElem?_eq_none (by omega)] at hidx
      cases hidx
    obtain ⟨hv, hlen, ho, hout⟩ := remove_ordered (Data.lawful lessFunc) hw hd.valid hlt hd.ordered
    obtain ⟨t, hvt, hlent, hgett, heq⟩ := hd.valid.remove_eq lessFunc hlt
    obtain ⟨key, -, hgetp, houtp⟩ := hvt.getByKey_pop (by omega)
    have hobj : d.objAt item.index = item.obj := Data.objAt_eq hidx hitem
    have hkey : key = keyFunc obj := by
      have h1 : getByKey d key = some item.obj := by
        rw [← hgett, ← houtp, ← heq, hout, hobj]
      rw [← hd.keyed _ _ h1, hd.keyed (keyFunc obj) item.obj (by simp [getByKey, hitem])]
    have hget : getByKey (remove (Data.heapInterface lessFunc) d item.index).1 =
        Function.update (getByKey d) (keyFunc obj) none := by
      rw [heq, hgetp, hgett, hkey]
    have hlen' : (remove (Data.heapInterface lessFunc) d item.index).1.queue.length =
        d.queue.length - 1 := hlen
    refine ⟨⟨hv, ?_, ?_⟩, by simp [getByKey, hitem], hget⟩
    · rw [hlen']
      exact ho
    · rw [hget]
      exact keyed_erase keyFunc hd.keyed

/-- Deleting and ignoring the error removes the key. -/
theorem Inv.deleteIfPresent_spec (hd : Inv keyFunc lessFunc d) (obj : V) :
    Inv keyFunc lessFunc (deleteIfPresent keyFunc lessFunc d obj) ∧
      getByKey (deleteIfPresent keyFunc lessFunc d obj) =
        Function.update (getByKey d) (keyFunc obj) none := by
  have h := hd.delete_spec hw obj
  unfold deleteIfPresent
  split
  · rename_i d' hdel
    rw [hdel] at h
    exact ⟨h.1, h.2.2⟩
  · rename_i e hdel
    rw [hdel] at h
    exact ⟨hd, (Function.update_eq_self_iff.mpr h.1.symm).symm⟩

/-- **`Heap.Pop` keeps the heap and returns the object of the first key, before which no object
of the heap is.** -/
theorem Inv.pop_spec (hd : Inv keyFunc lessFunc d) (hpos : 0 < d.queue.length) :
    ∃ v, (pop lessFunc d).1 = .ok v ∧ peek d = some v ∧ Inv keyFunc lessFunc (pop lessFunc d).2 ∧
      getByKey d (keyFunc v) = some v ∧
      getByKey (pop lessFunc d).2 = Function.update (getByKey d) (keyFunc v) none ∧
      ∀ k w, getByKey d k = some w → lessFunc w v = false := by
  obtain ⟨hv, hlen, ho, hout, hmin⟩ := pop_ordered (Data.lawful lessFunc) hw hd.valid hpos
    hd.ordered
  obtain ⟨t, hvt, hlent, hgett, heq⟩ := hd.valid.pop_eq lessFunc hpos
  obtain ⟨key, -, hgetp, houtp⟩ := hvt.getByKey_pop (by omega)
  have hfirst : getByKey d d.queue[0] = some (d.objAt 0) := hd.valid.getByKey_objAt hpos
  have hkey0 := hd.keyed _ _ hfirst
  have hkey : key = keyFunc (d.objAt 0) := by
    have h1 : getByKey d key = some (d.objAt 0) := by
      rw [← hgett, ← houtp, ← heq, hout]
    exact (hd.keyed _ _ h1).symm
  have hpop : pop lessFunc d = (.ok (d.objAt 0), (GoHeap.pop (Data.heapInterface lessFunc) d).1) := by
    unfold pop
    rw [show GoHeap.pop (Data.heapInterface lessFunc) d =
      ((GoHeap.pop (Data.heapInterface lessFunc) d).1, some (d.objAt 0)) from Prod.ext rfl hout]
  have hget : getByKey (GoHeap.pop (Data.heapInterface lessFunc) d).1 =
      Function.update (getByKey d) (keyFunc (d.objAt 0)) none := by
    rw [heq, hgetp, hgett, hkey]
  refine ⟨d.objAt 0, by rw [hpop], ?_, ?_, by rw [hkey0]; exact hfirst, by rw [hpop]; exact hget, ?_⟩
  · rw [hd.peek_spec, if_pos hpos]
  · have hlen' : (GoHeap.pop (Data.heapInterface lessFunc) d).1.queue.length =
        d.queue.length - 1 := hlen
    rw [hpop]
    refine ⟨hv, by rw [hlen']; exact ho, ?_⟩
    rw [hget]
    exact keyed_erase keyFunc hd.keyed
  · intro k w hw'
    obtain ⟨i, hi, -, rfl⟩ := hd.valid.exists_objAt hw'
    exact hmin i hi

end Order

end Operations

end Kubernetes.Scheduler.Heap
