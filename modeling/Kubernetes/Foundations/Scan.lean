import Mathlib

/-!
# Wrap-around scans

Allocators look for a free slot of `[0, n)` by scanning from some start position and wrapping
around at `n`. Two shapes of that loop occur:

* `rotation n s` lists `s, s + 1, …` modulo `n`, `n` positions in all; a scan returns the first
  of them that passes a test (`List.find?`). Every position of `[0, n)` occurs in it
  (`mem_rotation`), so the scan fails exactly when no position passes (`find?_rotation_eq_none`)
  and otherwise returns a position of `[0, n)` that passes (`find?_rotation_eq_some`).
* `stepScan p n fuel c` steps a cursor forward until it reaches a position that passes, at most
  `fuel` times; it is the first passing position of the rotation from `c`, or where the cursor
  stopped (`stepScan_eq`), so a full scan from a position of `[0, n)` stops on a passing
  position whenever there is one (`stepScan_spec`).
-/

namespace Scan

/-- The positions `s, s + 1, …, s + n - 1` of `[0, n)`, wrapping around at `n`. -/
def rotation (n s : ℕ) : List ℕ := (List.range n).map (fun i => (s + i) % n)

theorem mem_rotation {n s j : ℕ} : j ∈ rotation n s ↔ j < n := by
  simp only [rotation, List.mem_map, List.mem_range]
  constructor
  · rintro ⟨i, hi, rfl⟩
    exact Nat.mod_lt _ (by omega)
  · intro hj
    have hn : 0 < n := by omega
    have hs : s % n < n := Nat.mod_lt _ hn
    refine ⟨(j + n - s % n) % n, Nat.mod_lt _ hn, ?_⟩
    rw [Nat.add_mod, Nat.mod_mod]
    by_cases hle : s % n ≤ j
    · rw [show j + n - s % n = (j - s % n) + n by omega, Nat.add_mod_right,
        Nat.mod_eq_of_lt (by omega : j - s % n < n), show s % n + (j - s % n) = j by omega,
        Nat.mod_eq_of_lt hj]
    · rw [Nat.mod_eq_of_lt (by omega : j + n - s % n < n),
        show s % n + (j + n - s % n) = j + n by omega, Nat.add_mod_right, Nat.mod_eq_of_lt hj]

variable {p : ℕ → Bool} {n s : ℕ}

/-- A scan of the rotation fails exactly when no position of `[0, n)` passes. -/
theorem find?_rotation_eq_none : (rotation n s).find? p = none ↔ ∀ j < n, p j = false := by
  simp only [List.find?_eq_none, mem_rotation, Bool.not_eq_true]

/-- A scan of the rotation returns a passing position of `[0, n)`. -/
theorem find?_rotation_eq_some {j : ℕ} (h : (rotation n s).find? p = some j) :
    p j = true ∧ j < n :=
  ⟨List.find?_some h, mem_rotation.mp (List.mem_of_find?_eq_some h)⟩

/-- Step a cursor forward from `c`, wrapping around at `n`, until it reaches a position where
`p` holds, at most `fuel` times. -/
def stepScan (p : ℕ → Bool) (n : ℕ) : ℕ → ℕ → ℕ
  | 0, c => c
  | fuel + 1, c => if p c then c else stepScan p n fuel ((c + 1) % n)

/-- The stepping scan is the first passing position of the first `fuel` positions of the
rotation, or the position the cursor reached. -/
theorem stepScan_eq (fuel : ℕ) {c : ℕ} (hc : c < n) :
    stepScan p n fuel c =
      (((List.range fuel).map (fun i => (c + i) % n)).find? p).getD ((c + fuel) % n) := by
  induction fuel generalizing c with
  | zero => simp [stepScan, Nat.mod_eq_of_lt hc]
  | succ k ih =>
    have hn : 0 < n := by omega
    have hshift : ∀ i, (c + (i + 1)) % n = ((c + 1) % n + i) % n := fun i => by
      rw [Nat.add_mod ((c + 1) % n), Nat.mod_mod, ← Nat.add_mod, show c + 1 + i = c + (i + 1) by omega]
    have hmap : (fun i => (c + i) % n) ∘ Nat.succ = fun i => ((c + 1) % n + i) % n := by
      funext i; exact hshift i
    rw [stepScan, ih (Nat.mod_lt _ hn), List.range_succ_eq_map, List.map_cons, List.map_map,
      hmap, hshift k]
    simp only [Nat.add_zero, Nat.mod_eq_of_lt hc, List.find?_cons]
    cases p c <;> rfl

/-- **A full stepping scan from a position of `[0, n)` stops on a passing position of
`[0, n)`, whenever there is one.** -/
theorem stepScan_spec {c : ℕ} (hc : c < n) (hex : ∃ j < n, p j = true) :
    p (stepScan p n n c) = true ∧ stepScan p n n c < n := by
  rw [stepScan_eq n hc]
  have hsome : (rotation n c).find? p ≠ none := by
    rw [Ne, find?_rotation_eq_none]
    obtain ⟨j, hj, hpj⟩ := hex
    exact fun h => by simp [h j hj] at hpj
  obtain ⟨j, hj⟩ := Option.ne_none_iff_exists'.mp hsome
  have hj' : ((List.range n).map (fun i => (c + i) % n)).find? p = some j := hj
  rw [hj', Option.getD_some]
  exact find?_rotation_eq_some hj

end Scan
