import Mathlib

/-!
# Go's `container/heap`

The package keeps a binary min-heap in any container that implements `heap.Interface`: `Len`,
`Less(i, j)`, `Swap(i, j)`, and `Push`/`Pop` of the last element. `up` and `down` restore the
order after one element moved, and `Push`, `Pop`, `Remove` and `Fix` are built from them. The
algorithms here are the package's, over an `Interface` on any state `σ`.

What they need of the container is `Lawful`: on the states `valid` picks out, the container is a
sequence `get s 0, …, get s (len s - 1)`, `Less` compares two of its elements by a relation `lt`,
`Swap` exchanges two of them, `Push` appends and `Pop` removes and returns the last one.

For a strict weak order `lt`, `HeapOrdered` says that no element is before its parent
(`parent k = (k - 1) / 2`); then the first element is before no other (`HeapOrdered.root_min`).
A disturbed heap is described by where the disturbance sits, as in a textbook proof:

* `FixOrder g n i`: every parent and child off position `i` are in order, and the children of `i`
  are not before the parent of `i`;
* `DownOrder`: also `i` and its parent are in order, so only `i` and its children may be out of
  order (what `down` needs);
* `UpOrder`: also `i` and its children are in order, so only `i` and its parent may be out of
  order (what `up` needs).

`up_ordered` and `downLoop_ordered` restore the order from `UpOrder` and `DownOrder`; `fix_ordered`
from `FixOrder`, which is what changing one element of a heap leaves (`HeapOrdered.fixOrder`).
`push_ordered`, `pop_ordered` and `remove_ordered` follow; `pop_ordered` also says that `Pop`
returns an element no other element of the heap is before. Every algorithm only swaps elements,
so anything `Swap` keeps, they keep (`up_preserves`, `downLoop_preserves`).
-/

namespace GoHeap

/-- `heap.Interface` on a state `σ`: `Push` takes a `β`, and `Pop` removes the last element and
returns a `γ`. -/
structure Interface (σ β γ : Type*) where
  len : σ → ℕ
  less : σ → ℕ → ℕ → Bool
  swap : σ → ℕ → ℕ → σ
  push : σ → β → σ
  pop : σ → σ × γ

/-- The parent of position `k`, `(k - 1) / 2`; position `0` is its own. -/
def parent (k : ℕ) : ℕ := (k - 1) / 2

theorem parent_lt {k : ℕ} (hk : 0 < k) : parent k < k := by
  unfold parent
  omega

theorem parent_eq_iff {c p : ℕ} (hc : 0 < c) : parent c = p ↔ c = 2 * p + 1 ∨ c = 2 * p + 2 := by
  unfold parent
  omega

section Algorithms

variable {σ β γ : Type*} (h : Interface σ β γ)

/-- `up(h, j)`: swap the element at `j` with its parent while it is before it. -/
def up (s : σ) (j : ℕ) : σ :=
  if parent j = j ∨ h.less s j (parent j) = false then s
  else up (h.swap s (parent j) j) (parent j)
termination_by j
decreasing_by
  rename_i hj
  have := (not_or.mp hj).1
  unfold parent at this ⊢
  omega

/-- The child of `i` that `down` compares with `i`: the right child `2 * i + 2` when it is below
`n` and before the left one, otherwise the left child `2 * i + 1`. -/
def minChild (s : σ) (n i : ℕ) : ℕ :=
  if 2 * i + 2 < n ∧ h.less s (2 * i + 2) (2 * i + 1) then 2 * i + 2 else 2 * i + 1

theorem lt_minChild (s : σ) (n i : ℕ) : i < minChild h s n i := by
  unfold minChild
  split <;> omega

theorem minChild_lt {s : σ} {n i : ℕ} (hi : 2 * i + 1 < n) : minChild h s n i < n := by
  unfold minChild
  split <;> omega

theorem parent_minChild (s : σ) (n i : ℕ) : parent (minChild h s n i) = i := by
  unfold minChild parent
  split <;> omega

/-- The loop of `down(h, i0, n)` from position `i`: swap the element with its smaller child while
that child, below `n`, is before it. Returns the state and the position the element reached. -/
def downLoop (n : ℕ) (s : σ) (i : ℕ) : σ × ℕ :=
  if 2 * i + 1 ≥ n then (s, i)
  else if h.less s (minChild h s n i) i = false then (s, i)
  else downLoop n (h.swap s i (minChild h s n i)) (minChild h s n i)
termination_by n - i
decreasing_by
  have := lt_minChild h s n i
  have := minChild_lt h (s := s) (by omega : 2 * i + 1 < n)
  omega

/-- `down(h, i0, n)`: the state after the loop, and whether the element moved. -/
def down (s : σ) (i0 n : ℕ) : σ × Bool :=
  ((downLoop h n s i0).1, decide (i0 < (downLoop h n s i0).2))

/-- `heap.Push(h, x)`. -/
def push (s : σ) (x : β) : σ := up h (h.push s x) (h.len (h.push s x) - 1)

/-- `heap.Pop(h)`: move the first element to the end, restore the order of the others, and pop
it. -/
def pop (s : σ) : σ × γ :=
  h.pop (down h (h.swap s 0 (h.len s - 1)) 0 (h.len s - 1)).1

/-- The repair `heap.Fix` and `heap.Remove` make after the element at `i` changed: `down` from `i`
below `n`, then `up` from `i` when the element did not move down. -/
def repair (s : σ) (i n : ℕ) : σ :=
  if (down h s i n).2 then (down h s i n).1 else up h (down h s i n).1 i

/-- `heap.Fix(h, i)`: restore the order after the element at `i` changed. -/
def fix (s : σ) (i : ℕ) : σ := repair h s i (h.len s)

/-- `heap.Remove(h, i)`: move the element at `i` to the end, restore the order of the others,
and pop it. -/
def remove (s : σ) (i : ℕ) : σ × γ :=
  if h.len s - 1 ≠ i then h.pop (repair h (h.swap s i (h.len s - 1)) i (h.len s - 1))
  else h.pop s

end Algorithms

/-! ## Heap order -/

section Order

variable {α : Type*} (lt : α → α → Bool)

/-- No element below `n` is before its parent. -/
def HeapOrdered (g : ℕ → α) (n : ℕ) : Prop :=
  ∀ k, 0 < k → k < n → lt (g k) (g (parent k)) = false

/-- Every parent and child off position `i` are in order, and the children of `i` are not
before the parent of `i`. -/
structure FixOrder (g : ℕ → α) (n i : ℕ) : Prop where
  except : ∀ k, 0 < k → k < n → k ≠ i → parent k ≠ i → lt (g k) (g (parent k)) = false
  grand : 0 < i → ∀ c, 0 < c → c < n → parent c = i → lt (g c) (g (parent i)) = false

/-- Only `i` and its children may be out of order. -/
structure DownOrder (g : ℕ → α) (n i : ℕ) : Prop extends FixOrder lt g n i where
  above : 0 < i → i < n → lt (g i) (g (parent i)) = false

/-- Only `i` and its parent may be out of order. -/
structure UpOrder (g : ℕ → α) (n i : ℕ) : Prop extends FixOrder lt g n i where
  below : ∀ c, 0 < c → c < n → parent c = i → lt (g c) (g i) = false

variable {lt}

theorem HeapOrdered.mono {g : ℕ → α} {n m : ℕ} (ho : HeapOrdered lt g n) (hm : m ≤ n) :
    HeapOrdered lt g m :=
  fun k hk hkm => ho k hk (by omega)

theorem HeapOrdered.congr {g g' : ℕ → α} {n : ℕ} (ho : HeapOrdered lt g n)
    (hsame : ∀ k < n, g' k = g k) : HeapOrdered lt g' n := by
  intro k hk hkn
  rw [hsame k hkn, hsame _ (by have := parent_lt hk; omega)]
  exact ho k hk hkn

/-- A heap with one element appended: only the new element and its parent may be out of
order. -/
theorem HeapOrdered.upOrder_last {g g' : ℕ → α} {n : ℕ} (ho : HeapOrdered lt g n)
    (hsame : ∀ k < n, g' k = g k) : UpOrder lt g' (n + 1) n := by
  have hnochild : ∀ c, 0 < c → c < n + 1 → parent c ≠ n := fun c hc hcn hpc => by
    have := (parent_eq_iff hc).mp hpc
    omega
  refine ⟨⟨fun k hk hkn hkn' _ => ?_, fun _ c hc hcn hpc => absurd hpc (hnochild c hc hcn)⟩,
    fun c hc hcn hpc => absurd hpc (hnochild c hc hcn)⟩
  have hp := parent_lt hk
  rw [hsame k (by omega), hsame _ (by omega)]
  exact ho k hk (by omega)

theorem FixOrder.congr {g g' : ℕ → α} {n i : ℕ} (o : FixOrder lt g n i)
    (hsame : ∀ k < n, g' k = g k) : FixOrder lt g' n i := by
  constructor
  · intro k hk hkn hki hpk
    rw [hsame k hkn, hsame _ (by have := parent_lt hk; omega)]
    exact o.except k hk hkn hki hpk
  · intro hi c hc hcn hpc
    have hpi := parent_lt hi
    have hic : i < c := by rw [← hpc]; exact parent_lt hc
    rw [hsame c hcn, hsame _ (by omega)]
    exact o.grand hi c hc hcn hpc

theorem UpOrder.congr {g g' : ℕ → α} {n i : ℕ} (o : UpOrder lt g n i)
    (hsame : ∀ k < n, g' k = g k) : UpOrder lt g' n i := by
  refine ⟨o.toFixOrder.congr hsame, fun c hc hcn hpc => ?_⟩
  have hic : i < c := by rw [← hpc]; exact parent_lt hc
  rw [hsame c hcn, hsame i (by omega)]
  exact o.below c hc hcn hpc

theorem DownOrder.congr {g g' : ℕ → α} {n i : ℕ} (o : DownOrder lt g n i)
    (hsame : ∀ k < n, g' k = g k) : DownOrder lt g' n i := by
  refine ⟨o.toFixOrder.congr hsame, fun hi hin => ?_⟩
  rw [hsame i hin, hsame _ (by have := parent_lt hi; omega)]
  exact o.above hi hin

theorem UpOrder.finish {g : ℕ → α} {n j : ℕ} (o : UpOrder lt g n j)
    (hstop : 0 < j → lt (g j) (g (parent j)) = false) : HeapOrdered lt g n := by
  intro k hk hkn
  by_cases hkj : k = j
  · subst hkj
    exact hstop hk
  · by_cases hpk : parent k = j
    · have := o.below k hk hkn hpk
      rwa [hpk]
    · exact o.except k hk hkn hkj hpk

theorem DownOrder.finish {g : ℕ → α} {n i : ℕ} (o : DownOrder lt g n i)
    (hstop : ∀ c, 0 < c → c < n → parent c = i → lt (g c) (g i) = false) :
    HeapOrdered lt g n := by
  intro k hk hkn
  by_cases hpk : parent k = i
  · have := hstop k hk hkn hpk
    rwa [hpk]
  · by_cases hki : k = i
    · subst hki
      exact o.above hk hkn
    · exact o.except k hk hkn hki hpk

/-- Comparing by a key into a linear order, as a `Less` on timestamps does, is a strict weak
order. -/
theorem isStrictWeakOrder_key {β : Type*} [LinearOrder β] (f : α → β) :
    IsStrictWeakOrder α (fun a b => decide (f a < f b) = true) where
  irrefl a := by simp
  trans a b c hab hbc := by
    simp only [decide_eq_true_eq] at *
    exact lt_trans hab hbc
  incomp_trans a b c hab hbc := by
    simp only [decide_eq_true_eq, not_lt] at *
    exact ⟨le_trans hbc.1 hab.1, le_trans hab.2 hbc.2⟩

variable (hw : IsStrictWeakOrder α (fun a b => lt a b = true))
include hw

theorem lt_self_eq_false (a : α) : lt a a = false := by
  simpa using hw.irrefl a

theorem lt_trans_eq_true {a b c : α} (hab : lt a b = true) (hbc : lt b c = true) :
    lt a c = true :=
  hw.trans a b c hab hbc

theorem lt_asymm_eq_false {a b : α} (hab : lt a b = true) : lt b a = false := by
  cases hba : lt b a
  · rfl
  · simpa [lt_self_eq_false hw] using lt_trans_eq_true hw hab hba

/-- "Not before" is transitive. -/
theorem not_lt_trans {a b c : α} (hab : lt a b = false) (hbc : lt b c = false) :
    lt a c = false := by
  cases hac : lt a c
  · rfl
  · -- `b` is comparable with neither `a` nor `c`, and incomparability is transitive
    have hba : lt b a = false := by
      cases hba : lt b a
      · rfl
      · simpa [hbc] using lt_trans_eq_true hw hba hac
    have hcb : lt c b = false := by
      cases hcb : lt c b
      · rfl
      · simpa [hab] using lt_trans_eq_true hw hac hcb
    have := (hw.incomp_trans a b c ⟨by simp [hab], by simp [hba]⟩ ⟨by simp [hbc], by simp [hcb]⟩).1
    simp [hac] at this

theorem lt_of_lt_of_not_lt {a b c : α} (hab : lt a b = true) (hcb : lt c b = false) :
    lt a c = true := by
  cases hac : lt a c
  · simp [not_lt_trans hw hac hcb] at hab
  · rfl

/-- **The first element of a heap is before no other.** -/
theorem HeapOrdered.root_min {g : ℕ → α} {n : ℕ} (ho : HeapOrdered lt g n) :
    ∀ k < n, lt (g k) (g 0) = false := by
  intro k
  induction k using Nat.strongRecOn with
  | ind k ih =>
    intro hk
    rcases Nat.eq_zero_or_pos k with rfl | hpos
    · exact lt_self_eq_false hw _
    · exact not_lt_trans hw (ho k hpos hk) (ih _ (parent_lt hpos) (by have := parent_lt hpos; omega))

/-- A heap in which the element at `i` changed: the order holds off `i`, and the old element
sat between the parent of `i` and its children. -/
theorem HeapOrdered.fixOrder {g g' : ℕ → α} {n i : ℕ} (ho : HeapOrdered lt g n)
    (hsame : ∀ k < n, k ≠ i → g' k = g k) : FixOrder lt g' n i := by
  constructor
  · intro k hk hkn hki hpk
    rw [hsame k hkn hki, hsame _ (by have := parent_lt hk; omega) hpk]
    exact ho k hk hkn
  · intro hi c hc hcn hpc
    have hci : c ≠ i := by have := parent_lt hc; omega
    have hpi' := parent_lt hi
    have hpi : parent i ≠ i := by omega
    have hic : i < c := by rw [← hpc]; exact parent_lt hc
    rw [hsame c hcn hci, hsame (parent i) (by omega) hpi]
    have hc' := ho c hc hcn
    rw [hpc] at hc'
    exact not_lt_trans hw hc' (ho i hi (by have := parent_lt hc; omega))

/-! ### The swaps of `up` and `down` -/

/-- Swapping the element at `j` with its parent, which it is before, moves the disturbance up. -/
theorem UpOrder.move {g : ℕ → α} {n j : ℕ} (o : UpOrder lt g n j) (hj : 0 < j) (hjn : j < n)
    (hb : lt (g j) (g (parent j)) = true) :
    UpOrder lt (g ∘ Equiv.swap (parent j) j) n (parent j) := by
  have hpj := parent_lt hj
  have hne : parent j ≠ j := by omega
  refine ⟨⟨?_, ?_⟩, ?_⟩
  · intro k hk hkn hkp hpk
    simp only [Function.comp]
    have hkj : k ≠ j := fun hkj => hpk (by rw [hkj])
    rw [Equiv.swap_apply_of_ne_of_ne hkp hkj]
    by_cases hpkj : parent k = j
    · -- a child of `j` now sits under the old element of the parent of `j`
      rw [hpkj, Equiv.swap_apply_right]
      exact o.grand hj k hk hkn hpkj
    · rw [Equiv.swap_apply_of_ne_of_ne hpk hpkj]
      exact o.except k hk hkn hkj hpkj
  · intro hp c hc hcn hpc
    simp only [Function.comp]
    have hpp : parent (parent j) < parent j := parent_lt hp
    have hgp : Equiv.swap (parent j) j (parent (parent j)) = parent (parent j) :=
      Equiv.swap_apply_of_ne_of_ne (by omega) (by omega)
    have hgrand : lt (g (parent j)) (g (parent (parent j))) = false :=
      o.except _ hp (by omega) hne (by omega)
    rw [hgp]
    by_cases hcj : c = j
    · rw [hcj, Equiv.swap_apply_right]
      exact hgrand
    · have hcp : c ≠ parent j := by have := parent_lt hc; omega
      rw [Equiv.swap_apply_of_ne_of_ne hcp hcj]
      have hsib := o.except c hc hcn hcj (by omega)
      rw [hpc] at hsib
      exact not_lt_trans hw hsib hgrand
  · intro c hc hcn hpc
    simp only [Function.comp, Equiv.swap_apply_left]
    by_cases hcj : c = j
    · rw [hcj, Equiv.swap_apply_right]
      exact lt_asymm_eq_false hw hb
    · have hcp : c ≠ parent j := by have := parent_lt hc; omega
      rw [Equiv.swap_apply_of_ne_of_ne hcp hcj]
      have hsib := o.except c hc hcn hcj (by omega)
      rw [hpc] at hsib
      cases hcj' : lt (g c) (g j)
      · rfl
      · simpa [hsib] using lt_trans_eq_true hw hcj' hb

/-- When the element at `i` is not before a child `j` chosen before its sibling, neither child
is before it. -/
theorem children_not_lt {g : ℕ → α} {i j j' : ℕ} (hj : lt (g j) (g i) = false)
    (hmin : lt (g j') (g j) = false) : lt (g j') (g i) = false :=
  not_lt_trans hw hmin hj

/-- Swapping the element at `i` with a child `j` that is before it, and before which no child of
`i` is, moves the disturbance down to `j`. -/
theorem FixOrder.move {g : ℕ → α} {n i j : ℕ} (o : FixOrder lt g n i) (hpj : parent j = i)
    (hij : i < j) (hjn : j < n) (hb : lt (g j) (g i) = true)
    (hmin : ∀ c, 0 < c → c < n → parent c = i → lt (g c) (g j) = false) :
    DownOrder lt (g ∘ Equiv.swap i j) n j := by
  have hj : 0 < j := by omega
  refine ⟨⟨?_, ?_⟩, ?_⟩
  · intro k hk hkn hkj hpk
    simp only [Function.comp]
    by_cases hki : k = i
    · -- the old element of `j`, now at `i`, under the parent of `i`
      have hpi := parent_lt (hki ▸ hk : 0 < i)
      rw [hki, Equiv.swap_apply_left,
        Equiv.swap_apply_of_ne_of_ne (show parent i ≠ i by omega) (show parent i ≠ j by omega)]
      exact o.grand (hki ▸ hk) j hj hjn hpj
    · rw [Equiv.swap_apply_of_ne_of_ne hki hkj]
      by_cases hpki : parent k = i
      · rw [hpki, Equiv.swap_apply_left]
        exact hmin k hk hkn hpki
      · rw [Equiv.swap_apply_of_ne_of_ne hpki hpk]
        exact o.except k hk hkn hki hpki
  · intro _ c hc hcn hpc
    simp only [Function.comp]
    have hcj : j < c := by rw [← hpc]; exact parent_lt hc
    rw [hpj, Equiv.swap_apply_left,
      Equiv.swap_apply_of_ne_of_ne (show c ≠ i by omega) (show c ≠ j by omega)]
    have := o.except c hc hcn (by omega) (by omega)
    rwa [hpc] at this
  · intro _ _
    simp only [Function.comp]
    rw [hpj, Equiv.swap_apply_right, Equiv.swap_apply_left]
    exact lt_asymm_eq_false hw hb

end Order

/-! ## The algorithms on a lawful container -/

/-- What the algorithms need of an `Interface`: on the states `valid` picks out, the container is
the sequence `get s 0, …, get s (len s - 1)`; `Less` compares by `lt`, `Swap` exchanges two
elements, `Push` of an element the container `admits` appends `elem x`, and `Pop` removes the last
element and returns `out` of it. -/
structure Lawful {σ β γ α : Type*} (h : Interface σ β γ) (valid : σ → Prop) (get : σ → ℕ → α)
    (lt : α → α → Bool) (elem : β → α) (out : α → γ) (admits : σ → β → Prop) : Prop where
  less : ∀ s i j, valid s → i < h.len s → j < h.len s → h.less s i j = lt (get s i) (get s j)
  swap_valid : ∀ s i j, valid s → i < h.len s → j < h.len s → valid (h.swap s i j)
  len_swap : ∀ s i j, valid s → i < h.len s → j < h.len s → h.len (h.swap s i j) = h.len s
  get_swap : ∀ s i j k, valid s → i < h.len s → j < h.len s → k < h.len s →
    get (h.swap s i j) k = get s (Equiv.swap i j k)
  push_valid : ∀ s x, valid s → admits s x → valid (h.push s x)
  len_push : ∀ s x, valid s → admits s x → h.len (h.push s x) = h.len s + 1
  get_push : ∀ s x k, valid s → admits s x → k ≤ h.len s →
    get (h.push s x) k = if k < h.len s then get s k else elem x
  pop_valid : ∀ s, valid s → 0 < h.len s → valid (h.pop s).1
  len_pop : ∀ s, valid s → 0 < h.len s → h.len (h.pop s).1 = h.len s - 1
  get_pop : ∀ s k, valid s → k + 1 < h.len s → get (h.pop s).1 k = get s k
  pop_out : ∀ s, valid s → 0 < h.len s → (h.pop s).2 = out (get s (h.len s - 1))

section Lawful

variable {σ β γ α : Type*} {h : Interface σ β γ} {valid : σ → Prop} {get : σ → ℕ → α}
  {lt : α → α → Bool} {elem : β → α} {out : α → γ} {admits : σ → β → Prop}
  (hL : Lawful h valid get lt elem out admits)
include hL

/-- A property every swap below `m` keeps survives `up` from a position below `m`. -/
theorem up_preserves (P : σ → Prop) {m : ℕ}
    (hP : ∀ t a b, valid t → a < m → b < m → m ≤ h.len t → P t → P (h.swap t a b))
    {s : σ} {j : ℕ} (hv : valid s) (hm : m ≤ h.len s) (hj : j < m) (hs : P s) :
    valid (up h s j) ∧ h.len (up h s j) = h.len s ∧ P (up h s j) := by
  induction s, j using up.induct h with
  | case1 s j hstop =>
    rw [up, if_pos hstop]
    exact ⟨hv, rfl, hs⟩
  | case2 s j hgo ih =>
    rw [up, if_neg hgo]
    have hp : parent j < j := by have := (not_or.mp hgo).1; unfold parent at *; omega
    have hlen := hL.len_swap s (parent j) j hv (by omega) (by omega)
    obtain ⟨hv', hlen', hP'⟩ := ih (hL.swap_valid s (parent j) j hv (by omega) (by omega))
      (by omega) (by omega) (hP s (parent j) j hv (by omega) hj hm hs)
    exact ⟨hv', hlen'.trans hlen, hP'⟩

/-- A property every swap below `n` keeps survives the loop of `down`, which moves the element
only further down. -/
theorem downLoop_preserves (P : σ → Prop) {n : ℕ}
    (hP : ∀ t i j, valid t → i < n → j < n → n ≤ h.len t → P t → P (h.swap t i j))
    {s : σ} {i : ℕ} (hv : valid s) (hn : n ≤ h.len s) (hs : P s) :
    valid (downLoop h n s i).1 ∧ h.len (downLoop h n s i).1 = h.len s ∧
      P (downLoop h n s i).1 ∧ i ≤ (downLoop h n s i).2 := by
  induction s, i using downLoop.induct h n with
  | case1 s i hi =>
    rw [downLoop, if_pos hi]
    exact ⟨hv, rfl, hs, Nat.le_refl _⟩
  | case2 s i hi hstop =>
    rw [downLoop, if_neg hi, if_pos hstop]
    exact ⟨hv, rfl, hs, Nat.le_refl _⟩
  | case3 s i hi hgo ih =>
    rw [downLoop, if_neg hi, if_neg hgo]
    have hj := minChild_lt h (s := s) (by omega : 2 * i + 1 < n)
    have hij := lt_minChild h s n i
    have hlen := hL.len_swap s i (minChild h s n i) hv (by omega) (by omega)
    obtain ⟨hv', hlen', hP', hle⟩ := ih (hL.swap_valid s i (minChild h s n i) hv (by omega) (by omega))
      (by omega) (hP s i (minChild h s n i) hv (by omega) hj hn hs)
    exact ⟨hv', hlen'.trans hlen, hP', by omega⟩

theorem downLoop_valid {n : ℕ} {s : σ} {i : ℕ} (hv : valid s) (hn : n ≤ h.len s) :
    valid (downLoop h n s i).1 ∧ h.len (downLoop h n s i).1 = h.len s :=
  let r := downLoop_preserves hL (fun _ => True) (fun _ _ _ _ _ _ _ _ => trivial) (i := i) hv hn
    trivial
  ⟨r.1, r.2.1⟩

/-- Swaps below `n` keep the length and every position from `n` on. -/
theorem swap_keeps_from {n k : ℕ} {s₀ : σ} (hk : n ≤ k) :
    ∀ t a b, valid t → a < n → b < n → n ≤ h.len t →
      (h.len t = h.len s₀ ∧ k < h.len t ∧ get t k = get s₀ k) →
      h.len (h.swap t a b) = h.len s₀ ∧ k < h.len (h.swap t a b) ∧
        get (h.swap t a b) k = get s₀ k := by
  intro t a b ht ha hb _ ⟨hlt, hkt, hgt⟩
  have ha' : a < h.len t := by omega
  have hb' : b < h.len t := by omega
  have hlen := hL.len_swap t a b ht ha' hb'
  refine ⟨hlen.trans hlt, by omega, ?_⟩
  rw [hL.get_swap t a b k ht ha' hb' hkt, Equiv.swap_apply_of_ne_of_ne (by omega) (by omega)]
  exact hgt

/-- The swaps of `down` below `n` leave every position from `n` on as it was. -/
theorem get_downLoop_of_le {n : ℕ} {s : σ} {i k : ℕ} (hv : valid s) (hn : n ≤ h.len s)
    (hk : n ≤ k) (hkl : k < h.len s) : get (downLoop h n s i).1 k = get s k :=
  (downLoop_preserves hL _ (swap_keeps_from hL hk) (i := i) hv hn ⟨rfl, hkl, rfl⟩).2.2.1.2.2

/-- The order of the view after a swap, as a function. -/
theorem get_swap_eq {s : σ} {i j n : ℕ} (hv : valid s) (hi : i < h.len s) (hj : j < h.len s)
    (hn : n ≤ h.len s) : ∀ k < n, get (h.swap s i j) k = (get s ∘ Equiv.swap i j) k :=
  fun k hk => hL.get_swap s i j k hv hi hj (by omega)

/-- A property every swap below `n` keeps survives the repair of the first `n` elements. -/
theorem repair_preserves (P : σ → Prop) {n i : ℕ}
    (hP : ∀ t a b, valid t → a < n → b < n → n ≤ h.len t → P t → P (h.swap t a b))
    {s : σ} (hv : valid s) (hn : n ≤ h.len s) (hi : i < n) (hs : P s) :
    valid (repair h s i n) ∧ h.len (repair h s i n) = h.len s ∧ P (repair h s i n) := by
  obtain ⟨hv', hlen', hP', -⟩ := downLoop_preserves hL P hP (i := i) hv hn hs
  unfold repair
  split
  · exact ⟨hv', hlen', hP'⟩
  · obtain ⟨hv'', hlen'', hP''⟩ := up_preserves hL P hP (j := i) hv' (by omega) hi hP'
    exact ⟨hv'', hlen''.trans hlen', hP''⟩

/-- The repair below `n` leaves every position from `n` on as it was. -/
theorem get_repair_of_le {n : ℕ} {s : σ} {i k : ℕ} (hv : valid s) (hn : n ≤ h.len s) (hi : i < n)
    (hk : n ≤ k) (hkl : k < h.len s) : get (repair h s i n) k = get s k :=
  (repair_preserves hL _ (swap_keeps_from hL hk) hv hn hi ⟨rfl, hkl, rfl⟩).2.2.2.2

/-- What is left of a heap after its last element is popped. -/
theorem pop_last {t : σ} {n : ℕ} (hv : valid t) (hlen : h.len t = n + 1)
    (ho : HeapOrdered lt (get t) n) :
    valid (h.pop t).1 ∧ h.len (h.pop t).1 = n ∧ HeapOrdered lt (get (h.pop t).1) n ∧
      (h.pop t).2 = out (get t n) := by
  have hpos : 0 < h.len t := by omega
  refine ⟨hL.pop_valid t hv hpos, by rw [hL.len_pop t hv hpos]; omega,
    ho.congr fun k hk => hL.get_pop t k hv (by omega), ?_⟩
  rw [hL.pop_out t hv hpos, hlen, Nat.add_sub_cancel]

variable (hw : IsStrictWeakOrder α (fun a b => lt a b = true))
include hw

/-- **`up` restores the order** of the first `n` elements from a disturbance between `j` and its
parent. -/
theorem up_ordered {s : σ} {n j : ℕ} (hv : valid s) (hn : n ≤ h.len s) (hj : j < n)
    (o : UpOrder lt (get s) n j) : HeapOrdered lt (get (up h s j)) n := by
  induction s, j using up.induct h with
  | case1 s j hstop =>
    rw [up, if_pos hstop]
    refine o.finish fun hj0 => ?_
    rcases hstop with hpj | hless
    · exact absurd hpj (by have := parent_lt hj0; omega)
    · rwa [← hL.less s j _ hv (by omega) (by have := parent_lt hj0; omega)]
  | case2 s j hgo ih =>
    rw [up, if_neg hgo]
    have hj0 : 0 < j := by have := (not_or.mp hgo).1; unfold parent at this; omega
    have hp := parent_lt hj0
    have hb : lt (get s j) (get s (parent j)) = true := by
      rw [← hL.less s j _ hv (by omega) (by omega)]
      simpa using (not_or.mp hgo).2
    have hlen := hL.len_swap s (parent j) j hv (by omega) (by omega)
    exact ih (hL.swap_valid s (parent j) j hv (by omega) (by omega)) (by omega) (by omega)
      ((o.move hw hj0 hj hb).congr (get_swap_eq hL hv (by omega) (by omega) hn))

/-- The child `down` picks is one no child of `i` is before. -/
theorem minChild_min {s : σ} {n i : ℕ} (hv : valid s) (hn : n ≤ h.len s) :
    ∀ c, 0 < c → c < n → parent c = i → lt (get s c) (get s (minChild h s n i)) = false := by
  intro c hc hcn hpc
  have hc' := (parent_eq_iff hc).mp hpc
  unfold minChild
  split
  · rename_i hright
    have hb : lt (get s (2 * i + 2)) (get s (2 * i + 1)) = true := by
      rw [← hL.less s _ _ hv (by omega) (by omega)]
      exact hright.2
    rcases hc' with rfl | rfl
    · exact lt_asymm_eq_false hw hb
    · exact lt_self_eq_false hw _
  · rename_i hleft
    rcases hc' with rfl | rfl
    · exact lt_self_eq_false hw _
    · rw [← hL.less s _ _ hv (by omega) (by omega)]
      simpa [hcn] using hleft

/-- **The loop of `down` restores the order** of the first `n` elements from a disturbance
between `i` and its children. -/
theorem downLoop_ordered {s : σ} {n i : ℕ} (hv : valid s) (hn : n ≤ h.len s)
    (o : DownOrder lt (get s) n i) : HeapOrdered lt (get (downLoop h n s i).1) n := by
  induction s, i using downLoop.induct h n with
  | case1 s i hi =>
    rw [downLoop, if_pos hi]
    refine o.finish fun c hc hcn hpc => ?_
    have := (parent_eq_iff hc).mp hpc
    omega
  | case2 s i hi hstop =>
    rw [downLoop, if_neg hi, if_pos hstop]
    have hj := minChild_lt h (s := s) (by omega : 2 * i + 1 < n)
    have hstop' : lt (get s (minChild h s n i)) (get s i) = false := by
      rw [← hL.less s _ _ hv (by omega) (by have := lt_minChild h s n i; omega)]
      exact hstop
    exact o.finish fun c hc hcn hpc =>
      not_lt_trans hw (minChild_min hL hw hv hn c hc hcn hpc) hstop'
  | case3 s i hi hgo ih =>
    rw [downLoop, if_neg hi, if_neg hgo]
    have hj := minChild_lt h (s := s) (by omega : 2 * i + 1 < n)
    have hij := lt_minChild h s n i
    have hb : lt (get s (minChild h s n i)) (get s i) = true := by
      rw [← hL.less s _ _ hv (by omega) (by omega)]
      simpa using hgo
    have hlen := hL.len_swap s i (minChild h s n i) hv (by omega) (by omega)
    exact ih (hL.swap_valid s i _ hv (by omega) (by omega)) (by omega)
      ((o.toFixOrder.move hw (parent_minChild h s n i) hij hj hb
        (minChild_min hL hw hv hn)).congr
        (get_swap_eq hL hv (by omega) (by omega) hn))

/-- What `down` does from a disturbance around `i`: when the element moved, the first `n`
elements are in order; when it did not, nothing changed, and only `i` and its parent may be out
of order. -/
theorem down_fixOrder {s : σ} {n i : ℕ} (hv : valid s) (hn : n ≤ h.len s)
    (o : FixOrder lt (get s) n i) :
    ((down h s i n).2 = true → HeapOrdered lt (get (down h s i n).1) n) ∧
      ((down h s i n).2 = false → (down h s i n).1 = s ∧ UpOrder lt (get s) n i) := by
  unfold down
  rw [downLoop]
  split
  · rename_i hi
    refine ⟨fun h' => by simp at h', fun _ => ⟨rfl, o, fun c hc hcn hpc => ?_⟩⟩
    have := (parent_eq_iff hc).mp hpc
    omega
  · rename_i hi
    have hj := minChild_lt h (s := s) (by omega : 2 * i + 1 < n)
    have hij := lt_minChild h s n i
    split
    · rename_i hstop
      have hstop' : lt (get s (minChild h s n i)) (get s i) = false := by
        rw [← hL.less s _ _ hv (by omega) (by omega)]
        exact hstop
      exact ⟨fun h' => by simp at h', fun _ => ⟨rfl, o, fun c hc hcn hpc =>
        not_lt_trans hw (minChild_min hL hw hv hn c hc hcn hpc) hstop'⟩⟩
    · rename_i hgo
      have hb : lt (get s (minChild h s n i)) (get s i) = true := by
        rw [← hL.less s _ _ hv (by omega) (by omega)]
        simpa using hgo
      have hlen := hL.len_swap s i (minChild h s n i) hv (by omega) (by omega)
      have hv' := hL.swap_valid s i (minChild h s n i) hv (by omega) (by omega)
      have hmoved := (downLoop_preserves hL (fun _ => True) (fun _ _ _ _ _ _ _ _ => trivial)
        (n := n) (i := minChild h s n i) hv' (by omega) trivial).2.2.2
      refine ⟨fun _ => downLoop_ordered hL hw hv' (by omega)
        ((o.move hw (parent_minChild h s n i) hij hj hb
          (minChild_min hL hw hv hn)).congr
          (get_swap_eq hL hv (by omega) (by omega) hn)), fun h' => ?_⟩
      simp only [decide_eq_false_iff_not, Nat.not_lt] at h'
      omega

/-- The repair restores the order of the first `n` elements from a disturbance around `i`. -/
theorem repair_ordered {s : σ} {n i : ℕ} (hv : valid s) (hn : n ≤ h.len s) (hi : i < n)
    (o : FixOrder lt (get s) n i) : HeapOrdered lt (get (repair h s i n)) n := by
  obtain ⟨hmoved, hstill⟩ := down_fixOrder hL hw hv hn o
  unfold repair
  split
  · rename_i hd
    exact hmoved hd
  · rename_i hd
    obtain ⟨heq, ou⟩ := hstill (by simpa using hd)
    rw [heq]
    exact up_ordered hL hw hv hn hi ou

/-- **`heap.Fix` restores the order** after the element at `i` changed. -/
theorem fix_ordered {s : σ} {i : ℕ} (hv : valid s) (hi : i < h.len s)
    (o : FixOrder lt (get s) (h.len s) i) : HeapOrdered lt (get (fix h s i)) (h.len s) :=
  repair_ordered hL hw hv (Nat.le_refl _) hi o

/-- **`heap.Push` keeps the order**, with the new element last before the repair. -/
theorem push_ordered {s : σ} {x : β} (hv : valid s) (hx : admits s x)
    (ho : HeapOrdered lt (get s) (h.len s)) : HeapOrdered lt (get (push h s x)) (h.len s + 1) := by
  have hv' := hL.push_valid s x hv hx
  have hlen := hL.len_push s x hv hx
  unfold push
  rw [hlen, Nat.add_sub_cancel]
  exact up_ordered hL hw hv' (by omega) (by omega)
    (ho.upOrder_last fun k hk => by rw [hL.get_push s x k hv hx (by omega), if_pos hk])

/-- **`heap.Pop` keeps the order of the rest and returns the first element**, before which no
element of the heap is. -/
theorem pop_ordered {s : σ} (hv : valid s) (hpos : 0 < h.len s)
    (ho : HeapOrdered lt (get s) (h.len s)) :
    valid (pop h s).1 ∧ h.len (pop h s).1 = h.len s - 1 ∧
      HeapOrdered lt (get (pop h s).1) (h.len s - 1) ∧ (pop h s).2 = out (get s 0) ∧
      ∀ k < h.len s, lt (get s k) (get s 0) = false := by
  have hn : h.len s - 1 < h.len s := by omega
  have hv' := hL.swap_valid s 0 _ hv hpos hn
  have hlen := hL.len_swap s 0 _ hv hpos hn
  have o : FixOrder lt (get (h.swap s 0 (h.len s - 1))) (h.len s - 1) 0 :=
    (ho.mono (by omega)).fixOrder hw fun k hk hk0 => by
      rw [hL.get_swap s 0 _ k hv hpos hn (by omega), Equiv.swap_apply_of_ne_of_ne hk0 (by omega)]
  obtain ⟨hmoved, hstill⟩ := down_fixOrder hL hw hv' (by omega) o
  have hord : HeapOrdered lt (get (down h (h.swap s 0 (h.len s - 1)) 0 (h.len s - 1)).1)
      (h.len s - 1) := by
    cases hd : (down h (h.swap s 0 (h.len s - 1)) 0 (h.len s - 1)).2
    · obtain ⟨heq, ou⟩ := hstill hd
      rw [heq]
      exact ou.finish fun h0 => absurd h0 (Nat.lt_irrefl 0)
    · exact hmoved hd
  obtain ⟨hvd, hlend⟩ := downLoop_valid hL (n := h.len s - 1) (i := 0) hv' (by omega)
  have hlast : get (down h (h.swap s 0 (h.len s - 1)) 0 (h.len s - 1)).1 (h.len s - 1) =
      get s 0 := by
    rw [down, get_downLoop_of_le hL hv' (by omega) (Nat.le_refl _) (by omega),
      hL.get_swap s 0 _ _ hv hpos hn hn, Equiv.swap_apply_right]
  obtain ⟨hvp, hlenp, hop, hout⟩ := pop_last hL
    (t := (down h (h.swap s 0 (h.len s - 1)) 0 (h.len s - 1)).1) (n := h.len s - 1)
    hvd (by simp only [down]; omega) hord
  exact ⟨hvp, hlenp, hop, by rw [pop, hout, hlast], ho.root_min hw⟩

/-- **`heap.Remove` keeps the order of the rest and returns the element at `i`.** -/
theorem remove_ordered {s : σ} {i : ℕ} (hv : valid s) (hi : i < h.len s)
    (ho : HeapOrdered lt (get s) (h.len s)) :
    valid (remove h s i).1 ∧ h.len (remove h s i).1 = h.len s - 1 ∧
      HeapOrdered lt (get (remove h s i).1) (h.len s - 1) ∧ (remove h s i).2 = out (get s i) := by
  unfold remove
  split
  · rename_i hni
    have hn : h.len s - 1 < h.len s := by omega
    have hv' := hL.swap_valid s i _ hv hi hn
    have hlen := hL.len_swap s i _ hv hi hn
    have o : FixOrder lt (get (h.swap s i (h.len s - 1))) (h.len s - 1) i :=
      (ho.mono (by omega)).fixOrder hw fun k hk hki => by
        rw [hL.get_swap s i _ k hv hi hn (by omega), Equiv.swap_apply_of_ne_of_ne hki (by omega)]
    obtain ⟨hvu, hlenu, -⟩ := repair_preserves hL (fun _ => True) (fun _ _ _ _ _ _ _ _ => trivial)
      (n := h.len s - 1) (i := i) hv' (by omega) (by omega) trivial
    -- the repair swaps only below `len - 1`, where the removed element waits
    have hlast : get (repair h (h.swap s i (h.len s - 1)) i (h.len s - 1)) (h.len s - 1) =
        get s i := by
      rw [get_repair_of_le hL hv' (by omega) (by omega) (Nat.le_refl _) (by omega),
        hL.get_swap s i _ _ hv hi hn hn, Equiv.swap_apply_right]
    obtain ⟨hvp, hlenp, hop, hout⟩ := pop_last hL (n := h.len s - 1) hvu (by omega)
      (repair_ordered hL hw hv' (by omega) (by omega) o)
    exact ⟨hvp, hlenp, hop, by rw [hout, hlast]⟩
  · rename_i hni
    obtain ⟨hvp, hlenp, hop, hout⟩ := pop_last hL (n := h.len s - 1) hv (by omega) (ho.mono (by omega))
    exact ⟨hvp, hlenp, hop, by rw [hout]; congr 2; omega⟩

end Lawful

end GoHeap
