import Kubernetes.Scheduler.TopologySpread.Filtering

/-!
# The two critical paths of a topology key

`criticalPaths.update` keeps two slots of a key's counts. The comment of `preFilterState` says
that the first slot always holds the least count, and that the second slot may not hold the
second least. Two invariants of `update` say when this is so, for counts below `maxInt32`.

* `Sorted f S p`: `calPreFilterState` gives each value of the set `S` once, with its count `f`.
  The first slot then holds the least count and the second holds the least count of the other
  values (`Sorted.update`, `Sorted.foldl_update`). The least count is `Sorted.first_isLeast`.
* `Tracks a rest count p`: `updateWithPod` changes the count of one value `a`, and `rest` is the
  least count of the others. `a` holds the first slot and `rest` the second, or `rest` holds the
  first slot (`Tracks.update`). The first slot holds `min count rest` (`Tracks.first_matchNum`).
  A from-scratch build tracks any of its values (`Sorted.tracks`).

`isLeast_of_tracks` joins the two. After updates of `a` only, the first slot holds the least count
of the changed counts, which is what `calPreFilterState` finds from scratch.
-/

namespace Kubernetes.PodTopologySpread

namespace CriticalPaths

/-! ## The branches of `update` -/

theorem sort_of_le {p : CriticalPaths} (h : p.first.matchNum ≤ p.second.matchNum) : p.sort = p := by
  simp [sort, not_lt.2 h]

theorem sort_of_lt {p : CriticalPaths} (h : p.second.matchNum < p.first.matchNum) :
    p.sort = ⟨p.second, p.first⟩ := by
  simp [sort, h]

theorem update_of_eq_first {p : CriticalPaths} {v : String} (num : ℤ) (h : v = p.first.topologyValue) :
    p.update v num = sort ⟨⟨p.first.topologyValue, num⟩, p.second⟩ := by
  rw [update, if_pos h]

theorem update_of_eq_second {p : CriticalPaths} {v : String} (num : ℤ) (h₁ : v ≠ p.first.topologyValue)
    (h₂ : v = p.second.topologyValue) :
    p.update v num = sort ⟨p.first, ⟨p.second.topologyValue, num⟩⟩ := by
  rw [update, if_neg h₁, if_pos h₂]

theorem update_of_new {p : CriticalPaths} {v : String} (num : ℤ) (h₁ : v ≠ p.first.topologyValue)
    (h₂ : v ≠ p.second.topologyValue) :
    p.update v num = if num < p.first.matchNum then ⟨⟨v, num⟩, p.first⟩
      else if num < p.second.matchNum then ⟨p.first, ⟨v, num⟩⟩ else p := by
  rw [update, if_neg h₁, if_neg h₂]

/-! ## Built from scratch -/

section Sorted

variable {f : String → ℤ}

/-- The critical paths of a key whose values `S` have counts `f`, as `calPreFilterState` builds
them: no slot taken, one value and the empty placeholder, or the value of least count and the
value of least count among the others. -/
inductive Sorted (f : String → ℤ) : Set String → CriticalPaths → Prop
  | empty : Sorted f ∅ newCriticalPaths
  | single (u : String) : Sorted f {u} ⟨⟨u, f u⟩, ⟨"", maxInt32⟩⟩
  | pair {S : Set String} {u w : String} (hu : u ∈ S) (hw : w ∈ S) (hne : w ≠ u)
      (hleast : ∀ v ∈ S, f u ≤ f v) (hnext : ∀ v ∈ S, v ≠ u → f w ≤ f v) :
      Sorted f S ⟨⟨u, f u⟩, ⟨w, f w⟩⟩

/-- Two values `u`, `w` in the slots of an enlarged set: the new value `v` is compared with both. -/
theorem Sorted.pair_insert {S : Set String} {u w v : String} (hu : u ∈ insert v S) (hw : w ∈ insert v S)
    (hne : w ≠ u) (hleast : f u ≤ f v ∧ ∀ x ∈ S, f u ≤ f x)
    (hnext : (v ≠ u → f w ≤ f v) ∧ ∀ x ∈ S, x ≠ u → f w ≤ f x) :
    Sorted f (insert v S) ⟨⟨u, f u⟩, ⟨w, f w⟩⟩ :=
  .pair hu hw hne (Set.forall_mem_insert.2 hleast) (Set.forall_mem_insert.2 hnext)

/-- **A new value keeps the build sorted.** The placeholder value `""` may match a slot; it is then
the new value's slot, as `update` finds it. -/
theorem Sorted.update {S : Set String} {p : CriticalPaths} {v : String} (h : Sorted f S p) (hv : v ∉ S)
    (hlt : f v < maxInt32) : Sorted f (insert v S) (p.update v (f v)) := by
  cases h with
  | empty =>
    rw [← Set.singleton_def]
    unfold newCriticalPaths
    by_cases hv₀ : v = ""
    · subst hv₀
      rw [update_of_eq_first _ rfl, sort_of_le (p := ⟨⟨"", f ""⟩, ⟨"", maxInt32⟩⟩) hlt.le]
      exact .single ""
    · rw [update_of_new _ hv₀ hv₀, if_pos hlt]
      exact .single v
  | single u =>
    have hvu : v ≠ u := hv
    by_cases hv₀ : v = ""
    · subst hv₀
      rw [update_of_eq_second _ hvu rfl]
      by_cases hlt' : f "" < f u
      · rw [sort_of_lt hlt']
        exact .pair_insert (by simp) (by simp) hvu.symm ⟨le_rfl, by simpa using hlt'.le⟩
          ⟨fun h => absurd rfl h, by simp⟩
      · rw [sort_of_le (not_lt.1 hlt')]
        exact .pair_insert (by simp) (by simp) hvu ⟨not_lt.1 hlt', by simp⟩ ⟨fun _ => le_rfl, by simp⟩
    · rw [update_of_new _ hvu hv₀]
      split_ifs with hlt'
      · exact .pair_insert (by simp) (by simp) hvu.symm ⟨le_rfl, by simpa using hlt'.le⟩
          ⟨fun h => absurd rfl h, by simp⟩
      · exact .pair_insert (by simp) (by simp) hvu ⟨not_lt.1 hlt', by simp⟩ ⟨fun _ => le_rfl, by simp⟩
  | @pair _ u w hu hw hne hleast hnext =>
    have hvu : v ≠ u := fun h => hv (h ▸ hu)
    have hvw : v ≠ w := fun h => hv (h ▸ hw)
    rw [update_of_new _ hvu hvw]
    split_ifs with hlt₁ hlt₂
    · -- `v` takes the first slot and pushes `u` to the second
      exact .pair_insert (Set.mem_insert v S) (Set.mem_insert_of_mem v hu) hvu.symm
        ⟨le_rfl, fun x hx => hlt₁.le.trans (hleast x hx)⟩ ⟨fun h => absurd rfl h, fun x hx _ => hleast x hx⟩
    · -- `v` takes the second slot
      exact .pair_insert (Set.mem_insert_of_mem v hu) (Set.mem_insert v S) hvu
        ⟨not_lt.1 hlt₁, hleast⟩ ⟨fun _ => le_rfl, fun x hx hxu => hlt₂.le.trans (hnext x hx hxu)⟩
    · exact .pair_insert (Set.mem_insert_of_mem v hu) (Set.mem_insert_of_mem v hw) hne
        ⟨not_lt.1 hlt₁, hleast⟩ ⟨fun _ => not_lt.1 hlt₂, hnext⟩

/-- A loop of `update` over new values, each once. -/
theorem Sorted.foldl_update {S : Set String} {p : CriticalPaths} {l : List String} (h : Sorted f S p)
    (hnd : l.Nodup) (hnew : ∀ v ∈ l, v ∉ S) (hlt : ∀ v ∈ l, f v < maxInt32) :
    Sorted f (S ∪ {v | v ∈ l}) (l.foldl (fun p v => p.update v (f v)) p) := by
  induction l generalizing S p with
  | nil => simp [h]
  | cons v l ih =>
    rw [List.nodup_cons] at hnd
    have hstep := h.update (hnew v (List.mem_cons_self ..)) (hlt v (List.mem_cons_self ..))
    have hrest := ih hstep hnd.2
      (fun x hx hxS => (Set.mem_insert_iff.1 hxS).elim (fun hxv => hnd.1 (hxv ▸ hx))
        (hnew x (List.mem_cons_of_mem v hx)))
      (fun x hx => hlt x (List.mem_cons_of_mem v hx))
    rw [List.foldl_cons]
    convert hrest using 1
    ext x
    simp only [Set.mem_union, Set.mem_ofPred_eq, List.mem_cons, Set.mem_insert_iff]
    tauto

/-- The first slot of a from-scratch build holds the least count, `maxInt32` when no value has one. -/
theorem Sorted.first_isLeast {S : Set String} {p : CriticalPaths} (h : Sorted f S p)
    (hlt : ∀ v ∈ S, f v < maxInt32) : IsLeast (insert maxInt32 (f '' S)) p.first.matchNum := by
  cases h with
  | empty => simp [newCriticalPaths]
  | single u =>
    have h := (isLeast_singleton (a := f u)).insert maxInt32
    rwa [min_eq_right (hlt u rfl).le, ← Set.image_singleton] at h
  | @pair _ u _ hu _ _ hleast _ =>
    refine ⟨Set.mem_insert_of_mem _ ⟨u, hu, rfl⟩, ?_⟩
    rintro _ (rfl | ⟨x, hx, rfl⟩)
    · exact (hlt u hu).le
    · exact hleast x hx

end Sorted

/-! ## Updated at one value -/

/-- The critical paths of a key whose counts change at the value `a` only. `rest` is the least
count of the other values (`maxInt32` when there are none) and `count` the count of `a`. Either `a`
holds the first slot and `rest` the second (the second may hold the placeholder value `""` only
when there is no other value), or the first slot holds `rest`, with `a` in the second slot or with a
second slot whose count is at most `count`. -/
inductive Tracks (a : String) (rest count : ℤ) : CriticalPaths → Prop
  | first {second : CriticalPath} (hle : count ≤ rest) (hsecond : second.matchNum = rest)
      (hsame : second.topologyValue = a → rest = maxInt32) :
      Tracks a rest count ⟨⟨a, count⟩, second⟩
  | second {value : String} (hne : value ≠ a) (hle : rest ≤ count) :
      Tracks a rest count ⟨⟨value, rest⟩, ⟨a, count⟩⟩
  | neither {value : String} {second : CriticalPath} (hne : value ≠ a) (hne' : second.topologyValue ≠ a)
      (hle : rest ≤ second.matchNum) (hle' : second.matchNum ≤ count) :
      Tracks a rest count ⟨⟨value, rest⟩, second⟩

section Tracks

variable {a : String} {rest count : ℤ} {p : CriticalPaths}

/-- The first slot holds the least count. -/
theorem Tracks.first_matchNum (h : Tracks a rest count p) : p.first.matchNum = min count rest := by
  cases h with
  | first hle => exact (min_eq_left hle).symm
  | second _ hle => exact (min_eq_right hle).symm
  | neither _ _ hle hle' => exact (min_eq_right (hle.trans hle')).symm

/-- **`update` at `a` keeps tracking.** The count of `a` may go up or down; `rest` does not change. -/
theorem Tracks.update (h : Tracks a rest count p) {count' : ℤ} (hlt : count' < maxInt32) :
    Tracks a rest count' (p.update a count') := by
  cases h with
  | first hle hsecond hsame =>
    rename_i second
    rw [update_of_eq_first _ rfl]
    by_cases hgt : rest < count'
    · -- `a` falls behind the second slot, which cannot hold the placeholder `a` then
      have hne : second.topologyValue ≠ a := fun h => absurd (hsame h ▸ hgt) (not_lt.2 hlt.le)
      rw [sort_of_lt (by simpa [hsecond] using hgt)]
      have hsnd : second = ⟨second.topologyValue, rest⟩ := by rw [← hsecond]
      rw [hsnd]
      exact .second hne hgt.le
    · rw [sort_of_le (by simpa [hsecond] using not_lt.1 hgt)]
      exact .first (not_lt.1 hgt) hsecond hsame
  | second hne hle =>
    rename_i value
    rw [update_of_eq_second _ hne.symm rfl]
    by_cases hgt : count' < rest
    · rw [sort_of_lt hgt]
      exact .first hgt.le rfl fun h => absurd h hne
    · rw [sort_of_le (not_lt.1 hgt)]
      exact .second hne (not_lt.1 hgt)
  | neither hne hne' hle hle' =>
    rename_i value second
    rw [update_of_new _ hne.symm hne'.symm]
    split_ifs with hlt₁ hlt₂
    · exact .first hlt₁.le rfl fun h => absurd h hne
    · exact .second hne (not_lt.1 hlt₁)
    · exact .neither hne hne' hle (not_lt.1 hlt₂)

end Tracks

/-- **A from-scratch build tracks each of its values**, with the least count of the others. -/
theorem Sorted.tracks {f : String → ℤ} {S : Set String} {p : CriticalPaths} {a : String}
    (h : Sorted f S p) (ha : a ∈ S) (hlt : ∀ v ∈ S, f v < maxInt32) :
    ∃ rest, IsLeast (insert maxInt32 (f '' (S \ {a}))) rest ∧ Tracks a rest (f a) p := by
  cases h with
  | empty => exact absurd ha (Set.notMem_empty a)
  | single u =>
    obtain rfl : a = u := ha
    refine ⟨maxInt32, by simp, .first (hlt a rfl).le rfl fun _ => rfl⟩
  | @pair S u w hu hw hne hleast hnext =>
    by_cases hau : a = u
    · -- `a` holds the first slot; the second holds the least of the others
      subst hau
      refine ⟨f w, ⟨Set.mem_insert_of_mem _ ⟨w, ⟨hw, hne⟩, rfl⟩, ?_⟩, .first (hleast w hw) rfl
        fun h => absurd h hne⟩
      rintro _ (rfl | ⟨x, ⟨hx, hxa⟩, rfl⟩)
      · exact (hlt w hw).le
      · exact hnext x hx hxa
    · -- the first slot holds the least of the others
      have hrest : IsLeast (insert maxInt32 (f '' (S \ {a}))) (f u) := by
        refine ⟨Set.mem_insert_of_mem _ ⟨u, ⟨hu, Ne.symm hau⟩, rfl⟩, ?_⟩
        rintro _ (rfl | ⟨x, ⟨hx, -⟩, rfl⟩)
        · exact (hlt u hu).le
        · exact hleast x hx
      refine ⟨f u, hrest, ?_⟩
      by_cases haw : a = w
      · subst haw
        exact .second (Ne.symm hau) (hleast a ha)
      · exact .neither (Ne.symm hau) (Ne.symm haw) (hleast w hw) (hnext a ha hau)

/-- **Tracking gives the least count.** Counts `g` that differ from `f` at `a` only have the least
`min (g a) rest` on `S`, where `rest` is the least of `f` on the others. -/
theorem isLeast_of_tracks {f g : String → ℤ} {S : Set String} {a : String} {rest : ℤ} (ha : a ∈ S)
    (hrest : IsLeast (insert maxInt32 (f '' (S \ {a}))) rest) (hg : ∀ v ∈ S, v ≠ a → g v = f v) :
    IsLeast (insert maxInt32 (g '' S)) (min (g a) rest) := by
  have himage : g '' (S \ {a}) = f '' (S \ {a}) :=
    Set.image_congr fun v hv => hg v hv.1 hv.2
  rw [← Set.insert_sdiff_self_of_mem ha, Set.image_insert_eq, Set.insert_comm, himage]
  exact hrest.insert (g a)

end CriticalPaths

end Kubernetes.PodTopologySpread
