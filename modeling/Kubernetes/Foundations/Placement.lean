import Mathlib

/-!
# Entries placed at locations

A table maps keys to entries, and each entry names a location; every location holds a list of
keys. The two agree, `Placed loc table holds`, when each key of the table is held exactly once
at its entry's location, and every key a location holds is a key of the table placed there.
A cache that files objects under a key and also lists them by where they live keeps this
agreement; the lemmas below are the ways such a cache changes both sides together.

* `Placed.perm` and `Placed.congr_lookup`: only what a location holds, in any order, and what
  the table looks up matter.
* `Placed.insert`: a new key is added to the table and to its entry's location.
* `Placed.erase`: a key leaves the table and its location.
* `Placed.replace`: an entry is replaced by one at the same location.
* `Placed.move`: an entry is replaced by one anywhere, its key moving with it.
-/

namespace Placement

variable {κ ν σ : Type*} [DecidableEq κ] (loc : σ → ν)

/-- Every key of the table is held once, at its entry's location, and nothing else is held. -/
structure Placed (table : AList (fun _ : κ => σ)) (holds : ν → List κ) : Prop where
  once : ∀ k e, table.lookup k = some e → (holds (loc e)).count k = 1
  known : ∀ l, ∀ k ∈ holds l, ∃ e, table.lookup k = some e ∧ loc e = l

variable {loc} {table table' : AList (fun _ : κ => σ)} {holds holds' : ν → List κ}

theorem Placed.perm (h : Placed loc table holds) (hp : ∀ l, (holds' l).Perm (holds l)) :
    Placed loc table holds' where
  once k e he := ((hp (loc e)).count_eq k).trans (h.once k e he)
  known l k hk := h.known l k ((hp l).mem_iff.mp hk)

theorem Placed.congr_lookup (h : Placed loc table holds)
    (ht : ∀ k, table'.lookup k = table.lookup k) : Placed loc table' holds where
  once k e he := h.once k e ((ht k).symm.trans he)
  known l k hk := by
    obtain ⟨e, he, hl⟩ := h.known l k hk
    exact ⟨e, (ht k).trans he, hl⟩

/-- A key the table does not have is held nowhere. -/
theorem Placed.count_eq_zero (h : Placed loc table holds) {k : κ} (hk : table.lookup k = none)
    (l : ν) : (holds l).count k = 0 := by
  apply List.count_eq_zero.mpr
  intro hmem
  obtain ⟨e, he, -⟩ := h.known l k hmem
  rw [hk] at he
  cases he

/-- A key of the table is held at its entry's location only. -/
theorem Placed.loc_eq (h : Placed loc table holds) {k : κ} {e : σ} (he : table.lookup k = some e)
    {l : ν} (hk : k ∈ holds l) : loc e = l := by
  obtain ⟨e', he', hl⟩ := h.known l k hk
  rw [he] at he'
  cases he'
  exact hl

theorem Placed.replace (h : Placed loc table holds) {k : κ} {e e' : σ}
    (he : table.lookup k = some e) (hloc : loc e' = loc e) :
    Placed loc (table.insert k e') holds where
  once k' e'' he'' := by
    by_cases hkk : k' = k
    · subst hkk
      rw [AList.lookup_insert] at he''
      cases he''
      rw [hloc]
      exact h.once k' e he
    · rw [AList.lookup_insert_ne hkk] at he''
      exact h.once k' e'' he''
  known l k' hk' := by
    obtain ⟨e'', he'', hl⟩ := h.known l k' hk'
    by_cases hkk : k' = k
    · subst hkk
      rw [he] at he''
      cases he''
      exact ⟨e', AList.lookup_insert _, hloc.trans hl⟩
    · exact ⟨e'', by rw [AList.lookup_insert_ne hkk, he''], hl⟩

variable [DecidableEq ν]

theorem Placed.insert (h : Placed loc table holds) {k : κ} (hk : table.lookup k = none) (e : σ) :
    Placed loc (table.insert k e) (fun l => holds l ++ if l = loc e then [k] else []) where
  once k' e' he' := by
    by_cases hkk : k' = k
    · subst hkk
      rw [AList.lookup_insert] at he'
      cases he'
      simp [h.count_eq_zero hk]
    · rw [AList.lookup_insert_ne hkk] at he'
      rw [List.count_append, h.once k' e' he']
      split_ifs <;> simp [Ne.symm hkk]
  known l k' hk' := by
    rcases List.mem_append.mp hk' with hk' | hk'
    · obtain ⟨e', he', hl⟩ := h.known l k' hk'
      have hkk : k' ≠ k := by
        rintro rfl
        rw [hk] at he'
        cases he'
      exact ⟨e', by rw [AList.lookup_insert_ne hkk, he'], hl⟩
    · split_ifs at hk' with hl
      · obtain rfl := List.mem_singleton.mp hk'
        exact ⟨e, AList.lookup_insert _, hl.symm⟩
      · cases hk'

theorem Placed.erase (h : Placed loc table holds) {k : κ} {e : σ} (he : table.lookup k = some e) :
    Placed loc (table.erase k) (fun l => if l = loc e then (holds l).erase k else holds l) where
  once k' e' he' := by
    have hkk : k' ≠ k := by
      rintro rfl
      rw [AList.lookup_erase] at he'
      cases he'
    rw [AList.lookup_erase_ne hkk] at he'
    split_ifs
    · rw [List.count_erase_of_ne hkk]
      exact h.once k' e' he'
    · exact h.once k' e' he'
  known l k' hk' := by
    split_ifs at hk' with hl
    · have hkk : k' ≠ k := by
        rintro rfl
        have hzero : ((holds l).erase k').count k' = 0 := by
          rw [List.count_erase_self, hl, h.once k' e he]
        exact (List.count_pos_iff.mpr hk').ne' hzero
      obtain ⟨e', he', hl'⟩ := h.known l k' (List.mem_of_mem_erase hk')
      exact ⟨e', by rw [AList.lookup_erase_ne hkk, he'], hl'⟩
    · obtain ⟨e', he', hl'⟩ := h.known l k' hk'
      have hkk : k' ≠ k := by
        rintro rfl
        exact hl (h.loc_eq he hk').symm
      exact ⟨e', by rw [AList.lookup_erase_ne hkk, he'], hl'⟩

theorem Placed.move (h : Placed loc table holds) {k : κ} {e : σ} (he : table.lookup k = some e)
    (e' : σ) :
    Placed loc (table.insert k e') (fun l =>
      (if l = loc e then (holds l).erase k else holds l) ++ if l = loc e' then [k] else []) := by
  have hmoved := (h.erase he).insert (AList.lookup_erase k table) e'
  apply hmoved.congr_lookup
  intro k'
  by_cases hkk : k' = k
  · subst hkk
    rw [AList.lookup_insert, AList.lookup_insert]
  · rw [AList.lookup_insert_ne hkk, AList.lookup_insert_ne hkk, AList.lookup_erase_ne hkk]

end Placement
