import Mathlib

/-!
# Go loops over slices, and `sort.Slice`

A Go function that ranges over a slice, returning from inside the loop or breaking out of it, is
`Go.forRange` over a body that says which of the three it does (`Go.Next`). Its proof rule
`Go.forRange_rule` takes an invariant of the state and of the elements not yet visited: each
pass of the body keeps it or meets the postcondition of the way it leaves the loop.

`sort.Slice` (Go 1.16) is a quicksort down to slices of twelve elements, which it finishes with a
Shell sort pass of gap 6 and an insertion sort (`Go.smallSort`). Through a `less` function that
is not a strict weak order the outcome depends on every comparison the sort makes, so a model
must follow them; `Go.SortSlice` is a sort that only reorders (`SortSlice.perm`) and is
`smallSort` on slices of at most twelve elements (`SortSlice.small`). Ranging over a Go map
visits its keys once each in an order left to the runtime (`Go.MapOrder`).
-/

namespace Go

variable {α σ ρ : Type*}

/-! ## Loops that return or break -/

/-- How one pass of a loop body ends: the function returns `r`, the loop breaks with the state
`s`, or it goes on to the next element with the state `s`. -/
inductive Next (σ ρ : Type*) where
  | ret (r : ρ)
  | brk (s : σ)
  | cont (s : σ)

/-- `for _, x := range xs { body }` from the state `s`: what the function returned (`.inl`), or
the state the loop ended or broke with (`.inr`). -/
def forRange (body : σ → α → Next σ ρ) : σ → List α → ρ ⊕ σ
  | s, [] => .inr s
  | s, x :: xs =>
    match body s x with
    | .ret r => .inl r
    | .brk s => .inr s
    | .cont s => forRange body s xs

/-- What a pass must meet: a `return` the function's postcondition `Q`, a `break` the loop's
postcondition `R`, and going on the invariant `I` of the rest of the slice. -/
def Next.Meets (Q : ρ → Prop) (R I : σ → Prop) : Next σ ρ → Prop
  | .ret r => Q r
  | .brk s => R s
  | .cont s => I s

/-- The invariant rule of a loop over a slice: `I xs s` holds of the state `s` before the
elements `xs` are visited. -/
theorem forRange_rule {body : σ → α → Next σ ρ} {I : List α → σ → Prop}
    {Q : ρ → Prop} {R : σ → Prop}
    (hstep : ∀ x xs s, I (x :: xs) s → (body s x).Meets Q R (I xs))
    (hend : ∀ s, I [] s → R s) : ∀ xs s, I xs s → (forRange body s xs).elim Q R := by
  intro xs
  induction xs with
  | nil => exact hend
  | cons x xs ih =>
    intro s hs
    have hpass := hstep x xs s hs
    rw [forRange]
    cases hbody : body s x with
    | ret r => simpa [Next.Meets, hbody] using hpass
    | brk s' => simpa [Next.Meets, hbody] using hpass
    | cont s' =>
      rw [hbody] at hpass
      exact ih s' hpass

/-! ## `sort.Slice` on small slices -/

/-- The inner loop of `insertionSort_func`: the element at `j` moves left past the element at
`j - 1` while `less` puts it first. The prefix sorted so far is kept reversed, its last element
first. -/
def insertBack (less : α → α → Bool) (x : α) : List α → List α
  | [] => [x]
  | y :: ys => if less x y then y :: insertBack less x ys else x :: y :: ys

/-- `insertionSort_func`: each element in turn moves left into the prefix before it. -/
def insertionSort (less : α → α → Bool) (xs : List α) : List α :=
  (xs.foldl (fun sorted x => insertBack less x sorted) []).reverse

/-- The Shell sort pass of gap 6 on a slice of at most twelve elements, `front` its first six
and `back` the others: the element at `i + 6` and the one at `i` swap when `less` puts the first
of them first. The pairs are disjoint, so the order of the swaps does not matter. -/
def gapPass (less : α → α → Bool) : List α → List α → List α × List α
  | x :: front, y :: back =>
    let r := gapPass less front back
    if less y x then (y :: r.1, x :: r.2) else (x :: r.1, y :: r.2)
  | front, back => (front, back)

/-- What `quickSort_func` does to a slice of at most twelve elements: nothing to one element,
otherwise the Shell sort pass of gap 6 and then insertion sort. -/
def smallSort (less : α → α → Bool) (xs : List α) : List α :=
  if xs.length ≤ 1 then xs
  else
    let r := gapPass less (xs.take 6) (xs.drop 6)
    insertionSort less (r.1 ++ r.2)

theorem insertBack_perm (less : α → α → Bool) (x : α) (ys : List α) :
    (insertBack less x ys).Perm (x :: ys) := by
  induction ys with
  | nil => exact List.Perm.refl _
  | cons y ys ih =>
    unfold insertBack
    split
    · exact ((ih.cons y).trans (List.Perm.swap x y ys))
    · exact List.Perm.refl _

theorem foldl_insertBack_perm (less : α → α → Bool) (xs sorted : List α) :
    (xs.foldl (fun sorted x => insertBack less x sorted) sorted).Perm (sorted ++ xs) := by
  induction xs generalizing sorted with
  | nil => simp
  | cons x xs ih =>
    rw [List.foldl_cons]
    exact (ih _).trans (((insertBack_perm less x sorted).append_right xs).trans
      List.perm_middle.symm)

theorem insertionSort_perm (less : α → α → Bool) (xs : List α) :
    (insertionSort less xs).Perm xs :=
  (List.reverse_perm _).trans (foldl_insertBack_perm less xs [])

theorem gapPass_perm (less : α → α → Bool) :
    ∀ front back : List α,
      ((gapPass less front back).1 ++ (gapPass less front back).2).Perm (front ++ back)
  | x :: front, y :: back => by
    have hmid : ∀ a b, (a :: (gapPass less front back).1 ++ b :: (gapPass less front back).2).Perm
        (a :: b :: (front ++ back)) := fun a b =>
      (List.perm_middle.cons a).trans ((gapPass_perm less front back).cons b |>.cons a)
    by_cases hless : less y x
    · simp only [gapPass, hless, if_true]
      exact (hmid y x).trans ((List.Perm.swap x y _).trans (List.perm_middle.symm.cons x))
    · simp only [gapPass, hless, Bool.false_eq_true, if_false]
      exact (hmid x y).trans (List.perm_middle.symm.cons x)
  | [], back => by simp [gapPass]
  | x :: front, [] => by simp [gapPass]

theorem smallSort_perm (less : α → α → Bool) (xs : List α) :
    (smallSort less xs).Perm xs := by
  unfold smallSort
  split
  · exact List.Perm.refl _
  · refine (insertionSort_perm less _).trans ?_
    simpa only [List.take_append_drop] using gapPass_perm less (xs.take 6) (xs.drop 6)

/-- `sort.Slice(x, less)`, on the slice's elements. It only reorders the slice, and on a slice of
at most twelve elements it is `smallSort`; on a longer one Go partitions around pivots before,
which the model leaves open. -/
structure SortSlice (α : Type*) where
  sort : (α → α → Bool) → List α → List α
  perm : ∀ less xs, (sort less xs).Perm xs
  small : ∀ less xs, xs.length ≤ 12 → sort less xs = smallSort less xs

/-- A sort that is `smallSort` on slices of any length. -/
def SortSlice.ofSmall : SortSlice α := ⟨smallSort, smallSort_perm, fun _ _ _ => rfl⟩

theorem SortSlice.mem_sort (sortSlice : SortSlice α) (less : α → α → Bool) {xs : List α}
    {x : α} : x ∈ sortSlice.sort less xs ↔ x ∈ xs :=
  (sortSlice.perm less xs).mem_iff

theorem SortSlice.nodup_sort (sortSlice : SortSlice α) (less : α → α → Bool) {xs : List α} :
    (sortSlice.sort less xs).Nodup ↔ xs.Nodup :=
  (sortSlice.perm less xs).nodup_iff

/-! ## Ranging over a map -/

/-- The order in which Go ranges over the keys of a map, here a map holding a set: each element
once, in an order left to the runtime. -/
structure MapOrder (α : Type*) where
  toList : Finset α → List α
  nodup : ∀ s, (toList s).Nodup
  mem : ∀ s x, x ∈ toList s ↔ x ∈ s

/-- A two-element set is ranged over in one of its two orders. -/
theorem MapOrder.toList_pair (order : MapOrder α) [DecidableEq α] {a b : α} (hab : a ≠ b) :
    order.toList {a, b} = [a, b] ∨ order.toList {a, b} = [b, a] := by
  have hperm : (order.toList {a, b}).Perm [a, b] :=
    (List.perm_ext_iff_of_nodup (order.nodup _) (by simpa using hab)).mpr
      (fun x => by simp [order.mem])
  have hlen := hperm.length_eq
  match hl : order.toList {a, b}, hlen with
  | [x, y], _ =>
    rw [hl] at hperm
    have hx : x = a ∨ x = b := by simpa using hperm.subset (List.mem_cons_self ..)
    rcases hx with rfl | rfl
    · exact .inl (by simpa using hperm)
    · have hy : y = a := by
        simpa [hab.symm] using (List.perm_cons _).mp (hperm.trans (List.Perm.swap _ _ _))
      exact .inr (by rw [hy])

end Go
