import Mathlib
import Kubernetes.Foundations.GoStd

/-!
# Slices over a backing array

A Go slice is a window on an array: `s[:n]` and `append` keep the array, and a `range` loop reads
the array the slice had when the loop started, at each index up to the length it had then. A loop
that deletes from the slice it ranges over, by moving the last element into the place of the
deleted one (`s[i] = s[len(s)-1]; s = s[:len(s)-1]`), so reads what these writes leave in the
array.

* `Go.Slice.toList`, `Go.Slice.swapDelete` and `Go.Slice.push` are the elements, the deletion of
  the first element a test holds of, and `append`, with `Go.Slice.toList_swapDelete_perm`: a
  deletion takes out that element, as `List.eraseP` does.
* `Go.RangeDeleteInv`: while a `range` loop deletes, each time, only the element it has just read
  (found by a key no two elements share), the positions it has not reached hold the elements they
  held when it started (`Go.RangeDeleteInv.read`), so it reads every element of the slice once.
* `Go.foldlM_except_inv`: the invariant rule of a loop whose body may fail, read where the loop
  succeeds; over `range n` the next index is the number of turns done
  (`Go.eq_length_of_prefix_range`).

Where two slices share an array, a write through one is seen through the other, and `Slice`, which
gives each slice its own array, cannot say so. `Go.Arrays` holds the arrays by address and a
`Go.SliceHeader` points into one, as the runtime's `slice` does; `Go.Arrays.append` writes in place
where the capacity allows and otherwise into a fresh copy, of a capacity `Go.Growth` leaves to the
runtime.

* `Go.Arrays.toList_append`: the slice `append` returns holds the old elements and the new one.
* `Go.Arrays.Keeps m m' s`: from `m` to `m'`, nothing changed in the arrays `m` had allocated but
  past the length of `s` in its own. An `append` keeps its slice (`keeps_append`), a call on the
  slice it returns keeps the slice appended to (`keeps_of_append`), and what keeps an allocated
  slice keeps its elements (`toList_of_keeps`).
-/

namespace Go

variable {α β : Type*}

/-- A slice: the first `len` elements of its backing array. -/
structure Slice (α : Type*) where
  array : List α
  len : ℕ
  len_le : len ≤ array.length

namespace Slice

/-- The elements of the slice. -/
def toList (s : Slice α) : List α := s.array.take s.len

/-- A slice of a whole array. -/
def ofList (l : List α) : Slice α := ⟨l, l.length, le_rfl⟩

/-- `s[i] = s[len(s)-1]; s = s[:len(s)-1]` for the first `i` whose element `p` holds of, `none`
where there is none. -/
def swapDelete (p : α → Bool) (s : Slice α) : Option (Slice α) :=
  match s.toList.findIdx? p, s.toList.getLast? with
  | some i, some last => some ⟨s.array.set i last, s.len - 1, by
      rw [List.length_set]
      exact (Nat.sub_le _ _).trans s.len_le⟩
  | _, _ => none

/-- `s = append(s, a)`: written into the backing array where it has room, into a longer copy
otherwise. -/
def push (s : Slice α) (a : α) : Slice α :=
  if h : s.len < s.array.length then ⟨s.array.set s.len a, s.len + 1, by rw [List.length_set]; omega⟩
  else ⟨s.array ++ [a], s.len + 1, by have := s.len_le; simp; omega⟩

@[simp]
theorem length_toList (s : Slice α) : s.toList.length = s.len := by
  simp [toList, s.len_le]

@[simp]
theorem toList_ofList (l : List α) : (ofList l).toList = l := by
  simp [toList, ofList]

theorem toList_push (s : Slice α) (a : α) : (s.push a).toList = s.toList ++ [a] := by
  unfold push toList
  split_ifs with h
  · rw [List.take_add_one, List.getElem?_set_self h, Option.toList_some, List.take_set_of_le le_rfl]
  · have hlen : s.len = s.array.length := le_antisymm s.len_le (not_lt.mp h)
    rw [List.take_of_length_le (by simp [hlen]), List.take_of_length_le (by omega)]

/-- What a deletion leaves: the index `i` of the deleted element, the last element moved there,
and the array written. -/
theorem swapDelete_eq_some {p : α → Bool} {s s' : Slice α} (h : s.swapDelete p = some s') :
    ∃ i last, s.toList.findIdx? p = some i ∧ s.toList.getLast? = some last ∧
      s'.array = s.array.set i last ∧ s'.len = s.len - 1 := by
  unfold swapDelete at h
  split at h
  · rename_i i last hi hlast
    cases h
    exact ⟨i, last, hi, hlast, rfl, rfl⟩
  · cases h

/-- A deletion takes out the first element the test holds of. -/
theorem toList_swapDelete_perm {p : α → Bool} {s s' : Slice α} (h : s.swapDelete p = some s') :
    s'.toList.Perm (s.toList.eraseP p) := by
  obtain ⟨i, last, hi, hlast, harray, hlen⟩ := swapDelete_eq_some h
  have hilt : i < s.len := by
    simpa using (List.findIdx?_eq_some_iff_getElem.mp hi).1
  have hlist : s'.toList = (s.toList.set i last).dropLast := by
    rw [toList, harray, hlen, List.dropLast_eq_take, List.length_set, length_toList, toList,
      ← List.take_set, List.take_take, min_eq_left (Nat.sub_le _ _)]
  rw [hlist, List.eraseP_eq_eraseIdx, hi]
  exact dropLast_set_getLast_perm hlast (by simpa using hilt)

/-- A deletion finds an element the test holds of. -/
theorem swapDelete_isSome {p : α → Bool} {s : Slice α} {a : α} (ha : a ∈ s.toList) (hp : p a) :
    (s.swapDelete p).isSome := by
  have hfind : (s.toList.findIdx? p).isSome := by
    rw [List.findIdx?_isSome, List.any_eq_true]
    exact ⟨a, ha, hp⟩
  obtain ⟨i, hi⟩ := Option.isSome_iff_exists.mp hfind
  obtain ⟨last, hlast⟩ : ∃ last, s.toList.getLast? = some last :=
    Option.isSome_iff_exists.mp (List.getLast?_isSome.mpr (List.ne_nil_of_mem ha))
  simp [swapDelete, hi, hlast]

/-- A deletion by a test that holds, among the elements, of `a` alone takes out `a`. -/
theorem toList_swapDelete_perm_erase [DecidableEq α] {p : α → Bool} {s s' : Slice α} {a : α}
    (h : s.swapDelete p = some s') (hp : ∀ b ∈ s.toList, p b = true ↔ b = a) :
    s'.toList.Perm (s.toList.erase a) := by
  have herase : ∀ l : List α, (∀ b ∈ l, p b = true ↔ b = a) → l.eraseP p = l.erase a := by
    intro l
    induction l with
    | nil => simp
    | cons b l ih =>
      intro hl
      by_cases hb : b = a
      · subst hb
        simp [(hl b List.mem_cons_self).mpr rfl]
      · have hpb : p b = false := by simpa [hb] using hl b List.mem_cons_self
        rw [List.eraseP_cons_of_neg (by simp [hpb]), List.erase_cons_tail (by simpa using hb),
          ih fun c hc => hl c (List.mem_cons_of_mem b hc)]
  rw [← herase s.toList hp]
  exact toList_swapDelete_perm h

end Slice

/-! ## Deleting while ranging -/

/-- Where a `range` loop over the slice `ofList orig` stands at index `j`, in a loop that only
deletes the element it has just read: the array keeps its length, the positions from `j` on hold
what they held at the start, and each element of the slice sits at or below its first place. -/
structure RangeDeleteInv (orig : List α) (j : ℕ) (s : Slice α) : Prop where
  array_length : s.array.length = orig.length
  unvisited : ∀ m, j ≤ m → s.array[m]? = orig[m]?
  moved_down : ∀ q < s.len, ∃ m, q ≤ m ∧ s.array[q]? = orig[m]?
  subperm : s.toList.Subperm orig

namespace RangeDeleteInv

variable {orig : List α} {j : ℕ} {s : Slice α}

theorem init (orig : List α) : RangeDeleteInv orig 0 (Slice.ofList orig) where
  array_length := rfl
  unvisited _ _ := rfl
  moved_down q _ := ⟨q, le_rfl, rfl⟩
  subperm := by simpa using List.Subperm.refl orig

/-- The loop reads, at index `j`, the element the slice held there when it started. -/
theorem read (h : RangeDeleteInv orig j s) : s.array[j]? = orig[j]? :=
  h.unvisited j le_rfl

/-- A turn that deletes nothing. -/
theorem skip (h : RangeDeleteInv orig j s) : RangeDeleteInv orig (j + 1) s where
  array_length := h.array_length
  unvisited m hm := h.unvisited m (by omega)
  moved_down := h.moved_down
  subperm := h.subperm

/-- An element of the slice with the key of `orig[j]` sits at or below `j`. -/
theorem index_le (key : α → β) (hkeys : (orig.map key).Nodup) (h : RangeDeleteInv orig j s)
    {i : ℕ} (hi : i < s.len) {x y : α} (hx : orig[j]? = some x) (hy : s.array[i]? = some y)
    (hkey : key y = key x) : i ≤ j := by
  obtain ⟨m, him, hm⟩ := h.moved_down i hi
  rw [hy] at hm
  obtain ⟨hmlt, hmy⟩ := List.getElem?_eq_some_iff.mp hm.symm
  obtain ⟨hjlt, hjx⟩ := List.getElem?_eq_some_iff.mp hx
  have hmj : m = j := by
    have hm' : m < (orig.map key).length := by simpa using hmlt
    have hj' : j < (orig.map key).length := by simpa using hjlt
    have heq : (orig.map key)[m] = (orig.map key)[j] := by
      simp [hmy, hjx, hkey]
    exact hkeys.getElem_inj_iff.mp heq
  omega

/-- A turn that deletes the element it has just read, found by its key. -/
theorem delete (key : α → β) (hkeys : (orig.map key).Nodup) (h : RangeDeleteInv orig j s)
    {x : α} (hx : orig[j]? = some x) {p : α → Bool} (hp : ∀ y ∈ orig, p y = true → key y = key x)
    {s' : Slice α} (hs' : s.swapDelete p = some s') : RangeDeleteInv orig (j + 1) s' := by
  obtain ⟨i, last, hi, hlast, harray, hlen⟩ := Slice.swapDelete_eq_some hs'
  obtain ⟨hilt, hpi, -⟩ := List.findIdx?_eq_some_iff_getElem.mp hi
  have hilen : i < s.len := by simpa using hilt
  have hsi : s.array[i]? = some s.toList[i] := by
    simp [Slice.toList, List.getElem?_eq_getElem (lt_of_lt_of_le hilen s.len_le)]
  have hij : i ≤ j := h.index_le key hkeys hilen hx hsi
    (hp _ (h.subperm.subset (List.getElem_mem hilt)) hpi)
  -- the last element is moved down into place `i`, below every place not yet read
  have hlastAt : s.array[s.len - 1]? = some last := by
    rw [List.getLast?_eq_getElem?, Slice.length_toList, Slice.toList, List.getElem?_take,
      if_pos (by omega)] at hlast
    exact hlast
  refine ⟨?_, ?_, ?_, ?_⟩
  · rw [harray, List.length_set, h.array_length]
  · intro m hm
    rw [harray, List.getElem?_set_ne (by omega)]
    exact h.unvisited m (by omega)
  · intro q hq
    rw [hlen] at hq
    rw [harray]
    by_cases hqi : q = i
    · subst hqi
      obtain ⟨m, hm, hmq⟩ := h.moved_down (s.len - 1) (by omega)
      refine ⟨m, by omega, ?_⟩
      rw [List.getElem?_set_self (by have := s.len_le; omega), ← hmq, hlastAt]
    · rw [List.getElem?_set_ne (Ne.symm hqi)]
      exact h.moved_down q (by omega)
  · exact (Slice.toList_swapDelete_perm hs').subperm.trans
      ((List.eraseP_sublist).subperm.trans h.subperm)

end RangeDeleteInv

/-! ## Loops that may fail -/

/-- In a loop over `range n`, the index after the `done` ones is their count, below `n`. -/
theorem eq_length_of_prefix_range {done : List ℕ} {a n : ℕ} (h : done ++ [a] <+: List.range n) :
    a = done.length ∧ done.length < n := by
  obtain ⟨t, ht⟩ := h
  have hlen : done.length < n := by
    have := congrArg List.length ht
    simp only [List.length_append, List.length_singleton, List.length_range] at this
    omega
  refine ⟨?_, hlen⟩
  have := congrArg (fun l => l[done.length]?) ht
  rw [List.getElem?_range hlen, List.append_assoc, List.getElem?_append_right le_rfl] at this
  simpa using this

/-- A loop of `foldlM` in `Except`: what holds before it, and what each step that succeeds keeps
from the elements done to the next one, holds after the loop where it succeeds. -/
theorem foldlM_except_inv {ε σ : Type*} {f : σ → α → Except ε σ} (P : List α → σ → Prop)
    (l : List α) (hstep : ∀ done a s s', done ++ [a] <+: l → P done s → f s a = .ok s' →
      P (done ++ [a]) s')
    {s r : σ} (h0 : P [] s) (h : l.foldlM f s = .ok r) : P l r := by
  have hgen : ∀ rest done s, done ++ rest = l → P done s → rest.foldlM f s = .ok r → P l r := by
    intro rest
    induction rest with
    | nil =>
      intro done s hdone hP h
      simp only [List.append_nil] at hdone
      cases h
      exact hdone ▸ hP
    | cons a rest ih =>
      intro done s hdone hP h
      rw [List.foldlM_cons] at h
      cases hf : f s a with
      | error e =>
        rw [hf] at h
        cases h
      | ok s' =>
        rw [hf] at h
        exact ih (done ++ [a]) s' (by simpa using hdone)
          (hstep done a s s' ⟨rest, by simpa using hdone⟩ hP hf) h
  exact hgen l [] s rfl h0 h


/-! ## Slices that share a backing array -/

/-- The backing arrays, by address: `get p i` is element `i` of the array at `p`, and the
addresses from `next` on are not allocated yet. -/
structure Arrays (α : Type*) where
  get : ℕ → ℕ → α
  next : ℕ

/-- A slice header, as the runtime's `slice`: the address of its array, its length and its
capacity. -/
structure SliceHeader where
  data : ℕ
  len : ℕ
  cap : ℕ
  len_le_cap : len ≤ cap

/-- `[]T{}`: no elements and no room. -/
def SliceHeader.empty : SliceHeader := ⟨0, 0, 0, le_rfl⟩

/-- The capacity `growslice` gives the copy of a full slice that must hold `n` elements, from the
old capacity. Its rule (double, then grow by a quarter, then round up to a size class) has changed
between releases; `append` relies only on the copy holding the `n` elements. -/
structure Growth where
  newCap : ℕ → ℕ → ℕ
  le_newCap : ∀ cap n, n ≤ newCap cap n

/-- Double the capacity, or take the length needed if that is more: `growslice` below 256
elements, before it rounds up to a size class. -/
def Growth.doubling : Growth := ⟨fun cap n => max n (2 * cap), fun _ _ => le_max_left _ _⟩

namespace Arrays

variable {m m' m₁ m₂ m₃ : Arrays α} {s : SliceHeader}

/-- The arrays with element `i` of the one at `p` set to `a`. -/
def set (m : Arrays α) (p i : ℕ) (a : α) : Arrays α :=
  ⟨fun q j => if q = p ∧ j = i then a else m.get q j, m.next⟩

/-- The arrays with a new one at `next`, holding the first `n` elements of the one at `p`, then
zero values. -/
def allocCopy [Zero α] (m : Arrays α) (p n : ℕ) : Arrays α :=
  ⟨fun q j => if q = m.next then (if j < n then m.get p j else 0) else m.get q j, m.next + 1⟩

/-- `append(s, a)`: the element is written into the array of `s` where `s` has room past its
length, and into a fresh copy of its elements otherwise. -/
def append [Zero α] (g : Growth) (m : Arrays α) (s : SliceHeader) (a : α) :
    Arrays α × SliceHeader :=
  if h : s.len < s.cap then (m.set s.data s.len a, ⟨s.data, s.len + 1, s.cap, h⟩)
  else ((m.allocCopy s.data s.len).set m.next s.len a,
    ⟨m.next, s.len + 1, g.newCap s.cap (s.len + 1), g.le_newCap _ _⟩)

/-- The elements of `s`. -/
def toList (m : Arrays α) (s : SliceHeader) : List α := (List.range s.len).map (m.get s.data)

/-- A slice with room points at an allocated array (`[]T{}` points at none). -/
def Allocated (m : Arrays α) (s : SliceHeader) : Prop := 0 < s.cap → s.data < m.next

/-- From `m` to `m'` nothing changed in the arrays `m` had allocated but past the length of `s` in
its own: what a call that may append to `s` leaves to its caller. -/
structure Keeps (m m' : Arrays α) (s : SliceHeader) : Prop where
  next_le : m.next ≤ m'.next
  get_eq : ∀ p < m.next, ∀ i, (p = s.data → i < s.len) → m'.get p i = m.get p i

@[simp]
theorem length_toList (m : Arrays α) (s : SliceHeader) : (m.toList s).length = s.len := by
  simp [toList]

@[simp]
theorem toList_empty (m : Arrays α) : m.toList SliceHeader.empty = [] := rfl

theorem allocated_empty (m : Arrays α) : m.Allocated SliceHeader.empty :=
  fun h => absurd h (lt_irrefl 0)

theorem Allocated.mono (hs : m.Allocated s) (h : m.next ≤ m'.next) : m'.Allocated s :=
  fun hcap => lt_of_lt_of_le (hs hcap) h

section Append

variable [Zero α] (g : Growth) (a : α)

@[simp]
theorem len_append (m : Arrays α) (s : SliceHeader) : (m.append g s a).2.len = s.len + 1 := by
  unfold append
  split <;> rfl

/-- `append` writes into the array of its slice or into a fresh one. -/
theorem data_append (m : Arrays α) (s : SliceHeader) :
    (m.append g s a).2.data = s.data ∨ (m.append g s a).2.data = m.next := by
  unfold append
  split
  · exact .inl rfl
  · exact .inr rfl

/-- `append` adds its element after those of the slice. -/
theorem toList_append (m : Arrays α) (s : SliceHeader) :
    (m.append g s a).1.toList (m.append g s a).2 = m.toList s ++ [a] := by
  unfold append toList
  split
  · simp only [List.range_succ, List.map_append, List.map_singleton, set, and_self, if_true]
    congr 1
    refine List.map_congr_left fun i hi => ?_
    rw [if_neg (by simp at hi; omega)]
  · simp only [List.range_succ, List.map_append, List.map_singleton, set, and_self, if_true]
    congr 1
    refine List.map_congr_left fun i hi => ?_
    have hi : i < s.len := List.mem_range.mp hi
    simp [allocCopy, hi, Nat.ne_of_lt hi]

/-- An `append` changes its slice's array past the slice's length only, or a fresh array. -/
theorem keeps_append (m : Arrays α) (s : SliceHeader) : m.Keeps (m.append g s a).1 s := by
  unfold append
  split
  · refine ⟨le_rfl, fun p _ i hi => ?_⟩
    simp only [set]
    rw [if_neg]
    rintro ⟨rfl, rfl⟩
    exact lt_irrefl _ (hi rfl)
  · refine ⟨Nat.le_succ _, fun p hp i _ => ?_⟩
    simp only [set, allocCopy]
    rw [if_neg (by omega), if_neg (by omega)]

/-- What keeps the slice `append` returned, from the arrays it left, keeps the slice appended to
from the arrays before: the new slice reaches one element further into the same array, or is in a
fresh one. -/
theorem keeps_of_append {m m' : Arrays α} {s : SliceHeader}
    (h : (m.append g s a).1.Keeps m' (m.append g s a).2) : m.Keeps m' s := by
  have happ := keeps_append g a m s
  refine ⟨happ.next_le.trans h.next_le, fun p hp i hi => ?_⟩
  have hfresh : p = (m.append g s a).2.data → i < (m.append g s a).2.len := by
    intro hpd
    rw [len_append]
    rcases data_append g a m s with hd | hd
    · exact Nat.lt_succ_of_lt (hi (hpd.trans hd))
    · omega
  rw [h.get_eq p (lt_of_lt_of_le hp happ.next_le) i hfresh, happ.get_eq p hp i hi]

/-- Two appends to one slice with room write into one place of its array: the slice the first
returned sees the element of the second. -/
example :
    let s : SliceHeader := ⟨0, 0, 2, by decide⟩
    let m : Arrays ℤ := ⟨fun _ _ => 0, 1⟩
    let first := m.append Growth.doubling s 5
    let second := first.1.append Growth.doubling s 7
    first.1.toList first.2 = [5] ∧ second.1.toList first.2 = [7] := by
  decide

theorem allocated_append {m : Arrays α} {s : SliceHeader} (hs : m.Allocated s) :
    (m.append g s a).1.Allocated (m.append g s a).2 := by
  unfold append
  split
  · exact hs
  · exact fun _ => Nat.lt_succ_self _

end Append

theorem Keeps.refl (m : Arrays α) (s : SliceHeader) : m.Keeps m s :=
  ⟨le_rfl, fun _ _ _ _ => rfl⟩

theorem Keeps.trans (h₁ : m₁.Keeps m₂ s) (h₂ : m₂.Keeps m₃ s) : m₁.Keeps m₃ s where
  next_le := h₁.next_le.trans h₂.next_le
  get_eq p hp i hi :=
    (h₂.get_eq p (lt_of_lt_of_le hp h₁.next_le) i hi).trans (h₁.get_eq p hp i hi)

/-- What keeps an allocated slice keeps its elements. -/
theorem toList_of_keeps (h : m.Keeps m' s) (hs : m.Allocated s) : m'.toList s = m.toList s := by
  unfold toList
  refine List.map_congr_left fun i hi => ?_
  have hi : i < s.len := List.mem_range.mp hi
  exact h.get_eq s.data (hs (lt_of_lt_of_le (Nat.zero_lt_of_lt hi) s.len_le_cap)) i fun _ => hi

end Arrays

end Go
