import Mathlib

/-!
# Named bins

A store `m : AList (fun _ : κ => β)` keeps bins under names, and a list `names` of them is live.
The `contents` of the live bins is what `f` reads in each of them, bin after bin.

A program that moves elements between the bins of a store, and that marks bins live or not, keeps
track of every element when the contents, together with what is still to be placed, stay a
permutation of what there was to place. Replacing one live bin changes the contents by that bin
alone (`contents_insert_perm`), a bin that is not live does not count (`contents_insert_of_not_mem`),
and the order of the live names does not matter (`contents_perm_names`).
-/

namespace Bins

variable {κ β γ : Type*} [DecidableEq κ]

/-- The contents of the live bins `names` of the store `m`, as `f` reads each of them. -/
def contents (m : AList fun _ : κ => β) (names : List κ) (f : β → List γ) : List γ :=
  (names.filterMap m.lookup).flatMap f

variable (m : AList fun _ : κ => β) (f : β → List γ)

@[simp] theorem contents_nil : contents m [] f = [] := rfl

theorem contents_cons (n : κ) (names : List κ) :
    contents m (n :: names) f = ((m.lookup n).map f).getD [] ++ contents m names f := by
  unfold contents
  rw [List.filterMap_cons]
  cases m.lookup n with
  | none => rfl
  | some b => rfl

theorem contents_append (names₁ names₂ : List κ) :
    contents m (names₁ ++ names₂) f = contents m names₁ f ++ contents m names₂ f := by
  simp only [contents, List.filterMap_append, List.flatMap_append]

/-- Only the bins of live names count. -/
theorem contents_congr {m' : AList fun _ : κ => β} {names : List κ}
    (h : ∀ n ∈ names, m'.lookup n = m.lookup n) : contents m' names f = contents m names f := by
  unfold contents
  rw [List.filterMap_congr h]

theorem contents_insert_of_not_mem {n : κ} {names : List κ} (hn : n ∉ names) (v : β) :
    contents (m.insert n v) names f = contents m names f :=
  contents_congr m f fun _ hn' => AList.lookup_insert_ne fun h => hn (h ▸ hn')

theorem contents_perm_names {names names' : List κ} (h : names.Perm names') :
    (contents m names f).Perm (contents m names' f) :=
  (h.filterMap _).flatMap_right f

/-- A live bin can be read first. -/
theorem contents_perm_of_mem {names : List κ} {n : κ} (hn : n ∈ names) :
    (contents m names f).Perm (((m.lookup n).map f).getD [] ++ contents m (names.erase n) f) := by
  have h := contents_perm_names m f (List.perm_cons_erase hn)
  rwa [contents_cons] at h

/-- Replacing a live bin changes the contents by that bin alone. -/
theorem contents_insert_perm {names : List κ} (hnd : names.Nodup) {n : κ} (hn : n ∈ names)
    (v : β) : (contents (m.insert n v) names f).Perm (f v ++ contents m (names.erase n) f) := by
  have h := contents_perm_of_mem (m.insert n v) f hn
  rwa [AList.lookup_insert, contents_insert_of_not_mem m f (hnd.not_mem_erase) v] at h

/-- **Moving elements from what is still to place into the bins keeps the total**: when the bins
gain `moved` and the pending elements lose it, bins and pending elements together are still a
permutation of the total. -/
theorem perm_move (moved : List γ) {bins bins' pending pending' total : List γ}
    (hbins : bins'.Perm (moved ++ bins)) (hpending : (moved ++ pending').Perm pending)
    (h : (bins ++ pending).Perm total) : (bins' ++ pending').Perm total := by
  have h₁ : (bins' ++ pending').Perm (moved ++ (bins ++ pending')) := by
    rw [← List.append_assoc]
    exact hbins.append_right _
  have h₂ : (moved ++ (bins ++ pending')).Perm (bins ++ pending) :=
    (List.perm_append_comm_assoc _ _ _).trans (hpending.append_left _)
  exact h₁.trans (h₂.trans h)

/-- In a list whose elements have distinct keys, the element with the key of `a` can be taken out
first: the others are those with another key. -/
theorem perm_cons_filter {α : Type*} (key : α → κ) {l : List α}
    (hnd : (l.map key).Nodup) {a : α} (ha : a ∈ l) :
    (l.map key).Perm (key a :: (l.filter fun x => key x ≠ key a).map key) := by
  induction l with
  | nil => cases ha
  | cons b l ih =>
    rw [List.map_cons, List.nodup_cons] at hnd
    by_cases hb : key b = key a
    · -- `b` is the element with that key, and no other has it
      have hrest : l.filter (fun x => key x ≠ key a) = l :=
        List.filter_eq_self.mpr fun x hx => by
          rw [← hb]
          exact decide_eq_true fun hx' => hnd.1 (hx' ▸ List.mem_map_of_mem hx)
      rw [List.filter_cons_of_neg (by simpa using hb), hrest, List.map_cons, hb]
    · have ha' : a ∈ l := (List.mem_cons.mp ha).resolve_left fun h => hb (h ▸ rfl)
      rw [List.filter_cons_of_pos (by simpa using hb), List.map_cons, List.map_cons]
      exact ((ih hnd.2 ha').cons _).trans (List.Perm.swap _ _ _)

end Bins
