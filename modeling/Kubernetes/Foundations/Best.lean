import Mathlib

/-!
# Keeping the best candidates, enumerating choices, and greedy matching

Four patterns of search loops.

* `keepLower score`: a loop that keeps its current best and replaces it by a candidate that scores
  strictly lower. Over a list, the fold ends on a member of the start and the list
  (`foldl_keepLower_mem`) that scores no higher than any of them (`foldl_keepLower_le`), so its
  score is the least of theirs (`foldl_keepLower_isLeast`); when `score` is injective the fold
  depends only on that set, not on the order of the list (`foldl_keepLower_congr`).
* `choices L`: one element from each list of `L`, in the order of nested loops over the lists
  (the first list in the outermost loop). A list is a choice exactly when it picks a member of
  each list in turn (`mem_choices`), and permuting the lists permutes each choice
  (`Forall₂.exists_perm`).
* `greedyMatch xs ys`: a loop over `ys` that takes each element that is the next one of `xs`, and
  answers `true` when `xs` is used up before the last element of `ys` is read. Taking the first
  match is never worse than a later one, so it decides whether `xs` is a sublist of `ys` without
  its last element (`greedyMatch_iff`).
* `keepMinimal key bound`: a loop that keeps every candidate of the least key seen, starting
  afresh at a lower key. It keeps the candidates whose key is at most `bound` and every other
  key (`mem_keepMinimal`), in their order; written into a scratch slice at a tracked length
  (`minStepAt`), the front of the slice holds the same list (`foldl_minStepAt`).
-/

namespace Best

section KeepLower

variable {α β : Type*} [LinearOrder β] (score : α → β)

/-- Keep `best` unless `x` scores strictly lower. -/
def keepLower (best x : α) : α := if score x < score best then x else best

theorem keepLower_mem (best x : α) : keepLower score best x = best ∨ keepLower score best x = x := by
  unfold keepLower
  split
  · exact .inr rfl
  · exact .inl rfl

theorem keepLower_le_left (best x : α) : score (keepLower score best x) ≤ score best := by
  unfold keepLower
  split
  · rename_i h
    exact le_of_lt h
  · exact le_rfl

theorem keepLower_le_right (best x : α) : score (keepLower score best x) ≤ score x := by
  unfold keepLower
  split
  · exact le_rfl
  · rename_i h
    exact le_of_not_gt h

/-- The fold ends on its start or on a member of the list. -/
theorem foldl_keepLower_mem (init : α) (l : List α) : l.foldl (keepLower score) init ∈ init :: l := by
  induction l generalizing init with
  | nil => exact List.mem_singleton_self init
  | cons x l ih =>
    rw [List.foldl_cons]
    rcases List.mem_cons.mp (ih (keepLower score init x)) with h | h
    · rw [h]
      rcases keepLower_mem score init x with h' | h'
      · rw [h']
        exact List.mem_cons_self
      · rw [h']
        exact List.mem_cons_of_mem _ List.mem_cons_self
    · exact List.mem_cons_of_mem _ (List.mem_cons_of_mem _ h)

/-- The fold scores no higher than its start and any member of the list. -/
theorem foldl_keepLower_le (init : α) (l : List α) :
    ∀ y ∈ init :: l, score (l.foldl (keepLower score) init) ≤ score y := by
  induction l generalizing init with
  | nil =>
    intro y hy
    rw [List.mem_singleton.mp hy]
    exact le_rfl
  | cons x l ih =>
    intro y hy
    have hih := ih (keepLower score init x)
    rw [List.foldl_cons]
    rcases List.mem_cons.mp hy with rfl | hy
    · exact le_trans (hih _ List.mem_cons_self) (keepLower_le_left score y x)
    rcases List.mem_cons.mp hy with rfl | hy
    · exact le_trans (hih _ List.mem_cons_self) (keepLower_le_right score init y)
    · exact hih y (List.mem_cons_of_mem _ hy)

/-- The fold's score is the least score of its start and the list. -/
theorem foldl_keepLower_isLeast (init : α) (l : List α) :
    IsLeast (score '' {y | y ∈ init :: l}) (score (l.foldl (keepLower score) init)) :=
  ⟨⟨_, foldl_keepLower_mem score init l, rfl⟩, by
    rintro _ ⟨y, hy, rfl⟩
    exact foldl_keepLower_le score init l y hy⟩

variable {score}

/-- **The fold does not depend on the order of its candidates**: for an injective score, two folds
over the same set of candidates agree. -/
theorem foldl_keepLower_congr (hinj : Function.Injective score) {init init' : α} {l l' : List α}
    (h : ∀ y, y ∈ init :: l ↔ y ∈ init' :: l') :
    l.foldl (keepLower score) init = l'.foldl (keepLower score) init' := by
  have hset : {y | y ∈ init :: l} = {y | y ∈ init' :: l'} := Set.ext h
  have h₁ := foldl_keepLower_isLeast score init l
  have h₂ := foldl_keepLower_isLeast score init' l'
  rw [hset] at h₁
  exact hinj (h₁.unique h₂)

end KeepLower

section Choices

variable {α : Type*}

/-- One element from each list, in the order of nested loops over the lists. -/
def choices : List (List α) → List (List α)
  | [] => [[]]
  | l :: L => l.flatMap fun a => (choices L).map (a :: ·)

theorem mem_choices {L : List (List α)} {p : List α} :
    p ∈ choices L ↔ List.Forall₂ (· ∈ ·) p L := by
  induction L generalizing p with
  | nil => simp [choices]
  | cons l L ih =>
    cases p with
    | nil => simp [choices]
    | cons a p => simp [choices, ih, and_comm]

/-- Permuting the lists permutes each choice. -/
theorem Forall₂.exists_perm {L L' : List (List α)} (hL : L.Perm L') {p : List α}
    (hp : List.Forall₂ (· ∈ ·) p L) : ∃ p', List.Forall₂ (· ∈ ·) p' L' ∧ p.Perm p' := by
  induction hL generalizing p with
  | nil => exact ⟨p, hp, List.Perm.refl p⟩
  | cons l _ ih =>
    obtain ⟨a, q, ha, hq, rfl⟩ := List.forall₂_cons_right_iff.mp hp
    obtain ⟨q', hq', hperm⟩ := ih hq
    exact ⟨a :: q', .cons ha hq', hperm.cons a⟩
  | swap l₁ l₂ L =>
    obtain ⟨b, q, hb, hq, rfl⟩ := List.forall₂_cons_right_iff.mp hp
    obtain ⟨a, r, ha, hr, rfl⟩ := List.forall₂_cons_right_iff.mp hq
    exact ⟨a :: b :: r, .cons ha (.cons hb hr), List.Perm.swap a b r⟩
  | trans _ _ ih₁ ih₂ =>
    obtain ⟨p₁, hp₁, hperm₁⟩ := ih₁ hp
    obtain ⟨p₂, hp₂, hperm₂⟩ := ih₂ hp₁
    exact ⟨p₂, hp₂, hperm₁.trans hperm₂⟩

end Choices

section Greedy

variable {α : Type*} [DecidableEq α]

/-- Match `xs` against `ys` from the left, taking each element of `ys` that is the next one of
`xs`; `true` when `xs` is used up while an element of `ys` is still to be read. -/
def greedyMatch : List α → List α → Bool
  | _, [] => false
  | [], _ :: _ => true
  | x :: xs, y :: ys => if y = x then greedyMatch xs ys else greedyMatch (x :: xs) ys

/-- **Greedy matching decides sublists**, of `ys` without its last element. -/
theorem greedyMatch_iff {xs ys : List α} :
    greedyMatch xs ys = true ↔ ys ≠ [] ∧ xs.Sublist ys.dropLast := by
  induction ys generalizing xs with
  | nil => cases xs <;> simp [greedyMatch]
  | cons y ys ih =>
    cases xs with
    | nil => simp [greedyMatch]
    | cons x xs =>
      rcases eq_or_ne ys [] with rfl | hys
      · cases xs <;> simp [greedyMatch]
      rw [List.dropLast_cons_of_ne_nil hys]
      simp only [greedyMatch, ne_eq, reduceCtorEq, not_false_eq_true, true_and]
      by_cases hxy : y = x
      · -- the greedy step takes `y`, and a sublist starting with `y` may as well take it
        subst hxy
        rw [if_pos rfl, ih, List.cons_sublist_cons]
        exact and_iff_right hys
      · -- `y` is not `x`, so a sublist starting with `x` skips it
        rw [if_neg hxy, ih, List.sublist_cons_iff]
        simp [hys, Ne.symm hxy]

end Greedy

section KeepMinimal

variable {α β : Type*} [LinearOrder β] (key : α → β)

/-- One turn of a loop that keeps the candidates of least key seen so far, with that key: a
candidate of lower key starts the list afresh, and one of the same key joins it. -/
def minStep (acc : β × List α) (x : α) : β × List α :=
  let acc := if key x < acc.1 then (key x, []) else acc
  if key x = acc.1 then (acc.1, acc.2 ++ [x]) else acc

/-- The loop from `bound`: the candidates of least key, where that key is at most `bound`. -/
def keepMinimal (bound : β) (l : List α) : List α := (l.foldl (minStep key) (bound, [])).2

/-- What the loop holds after the candidates `done`: its key is the least of `bound` and theirs,
and it keeps the candidates of that key. -/
structure MinInv (bound : β) (done : List α) (acc : β × List α) : Prop where
  le_bound : acc.1 ≤ bound
  le_key : ∀ y ∈ done, acc.1 ≤ key y
  attained : acc.1 = bound ∨ ∃ y ∈ done, key y = acc.1
  kept : acc.2 = done.filter fun y => key y = acc.1

variable {key}

theorem MinInv.step {bound : β} {done : List α} {acc : β × List α} (h : MinInv key bound done acc)
    (x : α) : MinInv key bound (done ++ [x]) (minStep key acc x) := by
  unfold minStep
  rcases lt_trichotomy (key x) acc.1 with hlt | heq | hgt
  · -- a lower key: only `x` has it
    simp only [if_pos hlt, if_true]
    have hdone : done.filter (fun y => key y = key x) = [] :=
      List.filter_eq_nil_iff.mpr fun y hy => by
        simpa using (lt_of_lt_of_le hlt (h.le_key y hy)).ne'
    refine ⟨le_of_lt (lt_of_lt_of_le hlt h.le_bound), fun y hy => ?_, .inr ⟨x, by simp, rfl⟩, ?_⟩
    · rcases List.mem_append.mp hy with hy | hy
      · exact le_of_lt (lt_of_lt_of_le hlt (h.le_key y hy))
      · rw [List.mem_singleton.mp hy]
    · simp [List.filter_append, hdone]
  · -- the same key: `x` joins the candidates kept
    simp only [if_neg (not_lt.mpr heq.ge), if_pos heq]
    refine ⟨h.le_bound, fun y hy => ?_, h.attained.imp id fun ⟨y, hy, hky⟩ => ⟨y, by simp [hy], hky⟩, ?_⟩
    · rcases List.mem_append.mp hy with hy | hy
      · exact h.le_key y hy
      · rw [List.mem_singleton.mp hy, heq]
    · simp [List.filter_append, h.kept, heq]
  · -- a higher key: `x` is passed over
    simp only [if_neg (not_lt.mpr (le_of_lt hgt)), if_neg (ne_of_gt hgt)]
    refine ⟨h.le_bound, fun y hy => ?_, h.attained.imp id fun ⟨y, hy, hky⟩ => ⟨y, by simp [hy], hky⟩, ?_⟩
    · rcases List.mem_append.mp hy with hy | hy
      · exact h.le_key y hy
      · rw [List.mem_singleton.mp hy]
        exact le_of_lt hgt
    · simp [List.filter_append, h.kept, (ne_of_gt hgt)]

theorem MinInv.foldl {bound : β} {done : List α} {acc : β × List α} (h : MinInv key bound done acc)
    (l : List α) : MinInv key bound (done ++ l) (l.foldl (minStep key) acc) := by
  induction l generalizing done acc with
  | nil => simpa using h
  | cons x l ih => simpa using ih (h.step x)

theorem minInv_keepMinimal (bound : β) (l : List α) :
    MinInv key bound l (l.foldl (minStep key) (bound, [])) := by
  have h0 : MinInv key bound [] (bound, []) := ⟨le_rfl, by simp, .inl rfl, by simp⟩
  simpa using h0.foldl l

/-- **The loop keeps the candidates of least key**, where that key is at most `bound`. -/
theorem mem_keepMinimal {bound : β} {l : List α} {x : α} :
    x ∈ keepMinimal key bound l ↔ x ∈ l ∧ key x ≤ bound ∧ ∀ y ∈ l, key x ≤ key y := by
  have h : MinInv key bound l (l.foldl (minStep key) (bound, [])) := minInv_keepMinimal bound l
  rw [keepMinimal, h.kept, List.mem_filter, decide_eq_true_iff]
  refine and_congr_right fun hx => ⟨fun hkx => ⟨hkx ▸ h.le_bound, fun y hy => hkx ▸ h.le_key y hy⟩,
    fun ⟨hbound, hmin⟩ => le_antisymm ?_ (h.le_key x hx)⟩
  rcases h.attained with hm | ⟨y, hy, hky⟩
  · rw [hm]
    exact hbound
  · rw [← hky]
    exact hmin y hy

/-- Where every key is at most `bound`, some candidate is kept. -/
theorem keepMinimal_ne_nil {bound : β} {l : List α} (hne : l ≠ []) (hle : ∀ x ∈ l, key x ≤ bound) :
    keepMinimal key bound l ≠ [] := by
  have h : MinInv key bound l (l.foldl (minStep key) (bound, [])) := minInv_keepMinimal bound l
  rw [keepMinimal, h.kept]
  rcases h.attained with hm | ⟨y, hy, hky⟩
  · obtain ⟨x, hx⟩ := List.exists_mem_of_ne_nil l hne
    have hkx : key x = (l.foldl (minStep key) (bound, [])).1 :=
      le_antisymm ((hle x hx).trans_eq hm.symm) (h.le_key x hx)
    exact List.ne_nil_of_mem (List.mem_filter.mpr ⟨hx, decide_eq_true hkx⟩)
  · exact List.ne_nil_of_mem (List.mem_filter.mpr ⟨hy, decide_eq_true hky⟩)

/-- The candidates kept are in the order of the list. -/
theorem keepMinimal_sublist (bound : β) (l : List α) : (keepMinimal key bound l).Sublist l := by
  rw [keepMinimal, (minInv_keepMinimal bound l).kept]
  exact List.filter_sublist

/-- A candidate is kept, or it has a higher key than those kept. -/
theorem keepMinimal_lt_or_mem {bound : β} {l : List α} {x y : α}
    (hx : x ∈ keepMinimal key bound l) (hy : y ∈ l) :
    key x < key y ∨ (key x = key y ∧ y ∈ keepMinimal key bound l) := by
  obtain ⟨-, hbound, hmin⟩ := mem_keepMinimal.mp hx
  rcases (hmin y hy).lt_or_eq with hlt | heq
  · exact .inl hlt
  · refine .inr ⟨heq, mem_keepMinimal.mpr ⟨hy, heq ▸ hbound, fun z hz => heq ▸ hmin z hz⟩⟩

/-! ### Keeping them in a scratch slice -/

variable (key) in
/-- `minStep` where the candidates kept are written into a scratch slice at a tracked length, as
`minNodes[lenNodes] = node; lenNodes++` does: a lower key resets the length and leaves the slice. -/
def minStepAt (acc : β × List α × ℕ) (x : α) : β × List α × ℕ :=
  let acc := if key x < acc.1 then (key x, acc.2.1, 0) else acc
  if key x = acc.1 then (acc.1, acc.2.1.set acc.2.2 x, acc.2.2 + 1) else acc

/-- A scratch slice whose first `acc'.2.2` elements are the candidates `acc.2` kept. -/
structure ScratchOf (acc : β × List α) (acc' : β × List α × ℕ) : Prop where
  key_eq : acc'.1 = acc.1
  take_eq : acc'.2.1.take acc'.2.2 = acc.2
  len_eq : acc'.2.2 = acc.2.length

theorem take_set_succ {l : List α} {n : ℕ} (h : n < l.length) (x : α) :
    (l.set n x).take (n + 1) = l.take n ++ [x] := by
  rw [List.take_add_one, List.getElem?_set_self h, List.take_set_of_le le_rfl]
  rfl

/-- One turn writes inside the slice where the length is below its size. -/
theorem ScratchOf.step {acc : β × List α} {acc' : β × List α × ℕ} (h : ScratchOf acc acc')
    (hroom : acc'.2.2 < acc'.2.1.length) (x : α) :
    ScratchOf (minStep key acc x) (minStepAt key acc' x) ∧
      (minStepAt key acc' x).2.1.length = acc'.2.1.length ∧
      (minStepAt key acc' x).2.2 ≤ acc'.2.2 + 1 := by
  obtain ⟨m, arr, n⟩ := acc'
  obtain ⟨m', kept⟩ := acc
  obtain ⟨rfl, rfl, -⟩ := h
  dsimp only at hroom ⊢
  have hlen : (arr.take n).length = n := List.length_take_of_le hroom.le
  unfold minStep minStepAt
  by_cases hlt : key x < m
  · simp only [if_pos hlt, if_true]
    refine ⟨⟨rfl, ?_, rfl⟩, List.length_set, by omega⟩
    simpa using take_set_succ (lt_of_le_of_lt (Nat.zero_le n) hroom) x
  by_cases heq : key x = m
  · simp only [if_neg hlt, if_pos heq]
    exact ⟨⟨rfl, take_set_succ hroom x, by simp [hlen]⟩, List.length_set, le_rfl⟩
  · simp only [if_neg hlt, if_neg heq]
    exact ⟨⟨rfl, rfl, hlen.symm⟩, trivial, by omega⟩

/-- **The scratch slice holds what the list would**, where it has room for every candidate. -/
theorem ScratchOf.foldl {acc : β × List α} {acc' : β × List α × ℕ} (h : ScratchOf acc acc')
    (l : List α) (hroom : acc'.2.2 + l.length ≤ acc'.2.1.length) :
    ScratchOf (l.foldl (minStep key) acc) (l.foldl (minStepAt key) acc') ∧
      (l.foldl (minStepAt key) acc').2.1.length = acc'.2.1.length := by
  induction l generalizing acc acc' with
  | nil => exact ⟨h, rfl⟩
  | cons x l ih =>
    obtain ⟨hstep, hsize, hlen⟩ := h.step (by simp at hroom; omega) x
    obtain ⟨hrun, hsize'⟩ := ih hstep (by simp at hroom; omega)
    exact ⟨hrun, hsize'.trans hsize⟩

variable (key) in
/-- A pass from `bound` over a list, written into a scratch slice with room for it, leaves the
candidates of `keepMinimal` at the front of the slice and their number as its length. -/
theorem foldl_minStepAt (bound : β) {l arr : List α} (hroom : l.length ≤ arr.length) :
    ∃ k arr', l.foldl (minStepAt key) (bound, arr, 0) = (k, arr', (keepMinimal key bound l).length) ∧
      arr'.take (keepMinimal key bound l).length = keepMinimal key bound l ∧
      arr'.length = arr.length := by
  obtain ⟨hscratch, hsize⟩ : ScratchOf (l.foldl (minStep key) (bound, []))
      (l.foldl (minStepAt key) (bound, arr, 0)) ∧
      (l.foldl (minStepAt key) (bound, arr, 0)).2.1.length = arr.length :=
    ScratchOf.foldl ⟨rfl, rfl, rfl⟩ l (by simpa using hroom)
  have hkept : keepMinimal key bound l = (l.foldl (minStep key) (bound, [])).2 := rfl
  refine ⟨_, _, Prod.ext rfl (Prod.ext rfl hscratch.len_eq), ?_, hsize⟩
  rw [hkept, ← hscratch.len_eq]
  exact hscratch.take_eq

end KeepMinimal

end Best
