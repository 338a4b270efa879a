import Mathlib
import Kubernetes.Foundations.GoStrconv
import Kubernetes.CPUManager.PolicyStatic

/-!
# `CPUSet.String` and `Parse`

`CPUSet.String` (`cpuSetString`) writes a CPU set in the Linux list format: the sorted CPUs cut
into runs of consecutive IDs (`cpuRanges`), each run written `a-b`, or `a` alone, joined by
commas. `Parse` reads the format back: it splits the string at commas and each item at dashes,
reads one part as a CPU and two parts as the ends of a range with `strconv.Atoi`, adds the CPUs of
a range in the loop `for e := start; e <= end; e++`, and skips an item of more parts.

* `cpuRanges_canonical`: the runs of a strictly ascending list are ascending, each more than one
  past the one before, and cover exactly the list; two IDs at most one apart lie in one run
  (`eq_of_covers`). So `String` writes the maximal runs of the set.
* `parse_cpuSetString`: Parse reads back what String writes, for every set of IDs of `int`, unless
  it holds `math.MaxInt64` and the ID before it: String then writes a range ending at
  `math.MaxInt64`, where `e <= end` holds of every `int` and Parse's loop never ends
  (`parse_cpuSetString_eq_none`).
* Parse rejects no item of three or more parts, nor a range `N-M` with `N > M`: it reads both as
  no CPU (`parseRanges_skip`, `addRange_eq_some`).

`parse` returns `none` where `Parse` does not return, and drops the empty set `Parse` returns beside
an error.
-/

namespace Kubernetes.CPUManager

/-! ## `String` -/

/-- One step of `String`'s loop over the sorted CPUs, the last range first: the CPU extends the
last range when it follows its end, and starts a new range otherwise. -/
def extendRanges (ranges : List (ℕ × ℕ)) (e : ℕ) : List (ℕ × ℕ) :=
  match ranges with
  | (start, last) :: rest =>
    if e = last + 1 then (start, e) :: rest else (e, e) :: (start, last) :: rest
  | [] => [(e, e)]

theorem cpuRanges_eq (elems : List ℕ) :
    cpuRanges elems = (elems.foldl extendRanges []).reverse := rfl

/-- The ranges `String` has built from the sorted CPUs `pre`, the last range first: each from its
start to its end, each more than one past the next, together covering exactly `pre`. -/
structure RangesOf (pre : List ℕ) (acc : List (ℕ × ℕ)) : Prop where
  valid : ∀ r ∈ acc, r.1 ≤ r.2
  gaps : acc.Pairwise fun r' r => r.2 + 1 < r'.1
  covers : ∀ x, x ∈ pre ↔ ∃ r ∈ acc, r.1 ≤ x ∧ x ≤ r.2

/-- A CPU past all those before it extends the last range or starts a new one; either way the
ranges stay separated and cover one CPU more. -/
theorem RangesOf.extend {pre : List ℕ} {acc : List (ℕ × ℕ)} (h : RangesOf pre acc) {e : ℕ}
    (he : ∀ x ∈ pre, x < e) : RangesOf (pre ++ [e]) (extendRanges acc e) := by
  obtain ⟨hvalid, hgaps, hcovers⟩ := h
  cases acc with
  | nil =>
    simp only [CPUManager.extendRanges]
    refine ⟨by simp, by simp, fun x => ?_⟩
    simp only [List.mem_append, List.mem_singleton, hcovers, List.not_mem_nil, false_and,
      exists_false, false_or, exists_eq_left]
    omega
  | cons r rest =>
    obtain ⟨start, last⟩ := r
    simp only [List.forall_mem_cons, List.pairwise_cons] at hvalid hgaps
    have hlast : last < e :=
      he last ((hcovers last).mpr ⟨_, List.mem_cons_self, hvalid.1, le_rfl⟩)
    simp only [CPUManager.extendRanges]
    split
    · -- `e` follows the last range, which grows by one
      rename_i hnext
      have hrun : ∀ x, start ≤ x ∧ x ≤ last ∨ x = e ↔ start ≤ x ∧ x ≤ e := by omega
      refine ⟨List.forall_mem_cons.mpr ⟨by simp only; omega, hvalid.2⟩,
        List.pairwise_cons.mpr ⟨hgaps.1, hgaps.2⟩, fun x => ?_⟩
      simp only [List.mem_append, hcovers, List.mem_cons, List.not_mem_nil, or_false,
        exists_eq_or_imp]
      rw [← hrun]
      exact or_right_comm
    · -- a gap before `e`: a new range
      rename_i hnext
      refine ⟨List.forall_mem_cons.mpr ⟨le_rfl, List.forall_mem_cons.mpr hvalid⟩,
        List.pairwise_cons.mpr ⟨?_, List.pairwise_cons.mpr hgaps⟩, fun x => ?_⟩
      · simp only [List.mem_cons, forall_eq_or_imp]
        exact ⟨by omega, fun r hr => by have := hgaps.1 r hr; omega⟩
      · have hsingle : e ≤ x ∧ x ≤ e ↔ x = e := by omega
        simp only [List.mem_append, hcovers, List.mem_cons, List.not_mem_nil, or_false,
          exists_eq_or_imp]
        rw [hsingle]
        exact or_comm

/-- `String`'s loop over a strictly ascending list keeps the ranges separated and covering. -/
theorem RangesOf.foldl {pre : List ℕ} {acc : List (ℕ × ℕ)} (h : RangesOf pre acc) (rest : List ℕ)
    (hsorted : (pre ++ rest).Pairwise (· < ·)) :
    RangesOf (pre ++ rest) (rest.foldl CPUManager.extendRanges acc) := by
  induction rest generalizing pre acc with
  | nil => simpa using h
  | cons e rest ih =>
    have he : ∀ x ∈ pre, x < e :=
      fun x hx => (List.pairwise_append.mp hsorted).2.2 x hx e List.mem_cons_self
    have hassoc : pre ++ [e] ++ rest = pre ++ e :: rest := by simp
    rw [List.foldl_cons, ← hassoc]
    exact ih (h.extend he) (hassoc ▸ hsorted)

/-- **`String` writes the maximal runs of a set.** The ranges of a strictly ascending list are each
from a start to an end, ascending with a gap between each and the next, and cover exactly the
list. -/
theorem cpuRanges_canonical {elems : List ℕ} (h : elems.Pairwise (· < ·)) :
    (∀ r ∈ cpuRanges elems, r.1 ≤ r.2) ∧
      (cpuRanges elems).Pairwise (fun r r' => r.2 + 1 < r'.1) ∧
      ∀ x, x ∈ elems ↔ ∃ r ∈ cpuRanges elems, r.1 ≤ x ∧ x ≤ r.2 := by
  have hinit : RangesOf [] [] := ⟨by simp, by simp, by simp⟩
  have hrun := hinit.foldl elems (by simpa using h)
  rw [List.nil_append] at hrun
  rw [cpuRanges_eq]
  refine ⟨fun r hr => hrun.valid r (List.mem_reverse.mp hr), List.pairwise_reverse.mpr hrun.gaps,
    fun x => ?_⟩
  simp only [List.mem_reverse]
  exact hrun.covers x

/-- Two IDs at most one apart lie in one run. -/
theorem eq_of_covers {ranges : List (ℕ × ℕ)} (hgaps : ranges.Pairwise fun r r' => r.2 + 1 < r'.1)
    {r r' : ℕ × ℕ} (hr : r ∈ ranges) (hr' : r' ∈ ranges) {x y : ℕ} (hx : r.1 ≤ x ∧ x ≤ r.2)
    (hy : r'.1 ≤ y ∧ y ≤ r'.2) (hxy : x ≤ y + 1 ∧ y ≤ x + 1) : r = r' := by
  have happart : ∀ r ∈ ranges, ∀ r' ∈ ranges, r = r' ∨ r.2 + 1 < r'.1 ∨ r'.2 + 1 < r.1 :=
    List.Pairwise.forall_of_forall_of_flip (fun _ _ => Or.inl rfl)
      (hgaps.imp fun h => Or.inr (Or.inl h)) (hgaps.imp fun h => Or.inr (Or.inr h))
  rcases happart r hr r' hr' with heq | hgap | hgap
  · exact heq
  · omega
  · omega

/-- The characters `String` writes for a range: `a` alone, or `a-b`. -/
def rangeChars (r : ℕ × ℕ) : List Char :=
  if r.1 = r.2 then Nat.toDigits 10 r.1 else Nat.toDigits 10 r.1 ++ '-' :: Nat.toDigits 10 r.2

theorem toList_cpuSetString (s : Finset ℕ) :
    (cpuSetString s).toList = [','].intercalate ((cpuRanges (s.sort (· ≤ ·))).map rangeChars) := by
  rw [cpuSetString, String.toList_intercalate, List.map_map]
  congr 1
  refine List.map_congr_left fun r _ => ?_
  have hdash : "-".toList = ['-'] := rfl
  simp only [Function.comp_apply, rangeChars, apply_ite String.toList, String.toList_append,
    Nat.toString_eq_repr, Nat.toList_repr, hdash, List.append_assoc, List.singleton_append]

theorem rangeChars_ne_nil (r : ℕ × ℕ) : rangeChars r ≠ [] := by
  unfold rangeChars
  split
  · exact Nat.toDigits_ne_nil
  · simp [Nat.toDigits_ne_nil]

theorem splitOn_rangeChars (r : ℕ × ℕ) :
    (rangeChars r).splitOn '-' =
      if r.1 = r.2 then [Nat.toDigits 10 r.1] else [Nat.toDigits 10 r.1, Nat.toDigits 10 r.2] := by
  unfold rangeChars
  split
  · exact List.splitOn_eq_singleton (Go.not_mem_toDigits (by decide) _)
  · rw [List.splitOn_append_cons_self_of_not_mem (Go.not_mem_toDigits (by decide) _),
      List.splitOn_eq_singleton (Go.not_mem_toDigits (by decide) _)]

/-! ## `Parse` -/

/-- `for e := start; e <= end; e++ { b.Add(e) }`: the CPUs from `start` to `end` added to `b`. The
loop never ends when `end` is `math.MaxInt64`, since every `int` is at most that. -/
def addRange (start end_ : ℤ) (b : Finset ℤ) : Option (Finset ℤ) :=
  if start ≤ end_ ∧ end_ = 2 ^ 63 - 1 then none
  else
    some ((List.range (end_ + 1 - start).toNat).foldl (fun b (i : ℕ) => insert (start + i) b) b)

/-- `Parse` from the items of the string: each item split at dashes, one part a CPU, two parts a
range, more parts skipped; the first error of `Atoi` ends it. -/
def parseRanges : List (List Char) → Finset ℤ → Option (Except Go.NumError (Finset ℤ))
  | [], b => some (.ok b)
  | r :: ranges, b =>
    match r.splitOn '-' with
    | [elem] =>
      match Go.atoi elem with
      | .error err => some (.error err)
      | .ok elem => parseRanges ranges (insert elem b)
    | [start, end_] =>
      match Go.atoi start, Go.atoi end_ with
      | .error err, _ => some (.error err)
      | .ok _, .error err => some (.error err)
      | .ok start, .ok end_ =>
        match addRange start end_ b with
        | none => none
        | some b => parseRanges ranges b
    | _ => parseRanges ranges b

/-- `cpuset.Parse(s)`: the CPUs a Linux CPU list names, or the first error of `Atoi`; `none` where
it does not return. -/
def parse (s : String) : Option (Except Go.NumError (Finset ℤ)) :=
  if s = "" then some (.ok ∅) else parseRanges (s.toList.splitOn ',') ∅

theorem mem_foldl_insert (start : ℤ) (n : ℕ) (b : Finset ℤ) (x : ℤ) :
    x ∈ (List.range n).foldl (fun b (i : ℕ) => insert (start + i) b) b ↔
      x ∈ b ∨ start ≤ x ∧ x < start + n := by
  induction n with
  | zero => simp
  | succ n ih =>
    rw [List.range_succ, List.foldl_append, List.foldl_cons, List.foldl_nil, Finset.mem_insert, ih]
    have : x = start + n ∨ start ≤ x ∧ x < start + n ↔ start ≤ x ∧ x < start + (n + 1 : ℕ) := by
      push_cast
      omega
    rw [← this]
    exact or_left_comm

/-- The loop adds the CPUs from `start` to `end`, none when `start > end`. -/
theorem addRange_eq_some {start end_ : ℤ} (h : ¬(start ≤ end_ ∧ end_ = 2 ^ 63 - 1))
    (b : Finset ℤ) : addRange start end_ b = some (b ∪ Finset.Icc start end_) := by
  rw [addRange, if_neg h, Option.some_inj]
  ext x
  rw [mem_foldl_insert, Finset.mem_union, Finset.mem_Icc]
  have : start ≤ x ∧ x < start + ((end_ + 1 - start).toNat : ℕ) ↔ start ≤ x ∧ x ≤ end_ := by
    omega
  rw [this]

/-- An item of three or more dash-separated parts is skipped, whatever the parts are. -/
theorem parseRanges_skip {r : List Char} (h : 3 ≤ (r.splitOn '-').length)
    (ranges : List (List Char)) (b : Finset ℤ) :
    parseRanges (r :: ranges) b = parseRanges ranges b := by
  rw [parseRanges]
  split
  next elem heq =>
    rw [heq] at h
    simp at h
  next start end_ heq =>
    rw [heq] at h
    simp at h
  next => rfl

/-- Parse reads the item `String` writes for a range of IDs of `int`: one CPU, or the range, whose
loop never ends when it ends at `math.MaxInt64`. -/
theorem parseRanges_rangeChars_cons {r : ℕ × ℕ} (hr : r.2 < 2 ^ 63) (hvalid : r.1 ≤ r.2)
    (ranges : List (List Char)) (b : Finset ℤ) :
    parseRanges (rangeChars r :: ranges) b =
      if r.1 < r.2 ∧ r.2 = 2 ^ 63 - 1 then none
      else parseRanges ranges (b ∪ Finset.Icc (r.1 : ℤ) r.2) := by
  have h1 : Go.atoi (Nat.toDigits 10 r.1) = .ok r.1 := Go.atoi_toDigits (by omega)
  have h2 : Go.atoi (Nat.toDigits 10 r.2) = .ok r.2 := Go.atoi_toDigits hr
  rw [parseRanges, splitOn_rangeChars]
  by_cases heq : r.1 = r.2
  · rw [if_pos heq, if_neg (by omega)]
    simp only [h1]
    rw [← heq, Finset.Icc_self, Finset.insert_eq, Finset.union_comm]
  · rw [if_neg heq]
    simp only [h1, h2]
    by_cases hmax : r.2 = 2 ^ 63 - 1
    · have hdiv : (r.1 : ℤ) ≤ r.2 ∧ (r.2 : ℤ) = 2 ^ 63 - 1 := ⟨by exact_mod_cast hvalid, by omega⟩
      rw [if_pos ⟨by omega, hmax⟩, addRange, if_pos hdiv]
    · rw [if_neg (by omega), addRange_eq_some (by omega)]

/-- Parse reads the items `String` writes for ranges that do not end at `math.MaxInt64`: the
union of the ranges. -/
theorem parseRanges_rangeChars {ranges : List (ℕ × ℕ)} (hlt : ∀ r ∈ ranges, r.2 < 2 ^ 63)
    (hvalid : ∀ r ∈ ranges, r.1 ≤ r.2) (hmax : ∀ r ∈ ranges, r.1 < r.2 → r.2 ≠ 2 ^ 63 - 1)
    (b : Finset ℤ) :
    parseRanges (ranges.map rangeChars) b =
      some (.ok (ranges.foldl (fun b r => b ∪ Finset.Icc (r.1 : ℤ) r.2) b)) := by
  induction ranges generalizing b with
  | nil => rfl
  | cons r ranges ih =>
    simp only [List.forall_mem_cons] at hlt hvalid hmax
    rw [List.map_cons, parseRanges_rangeChars_cons hlt.1 hvalid.1,
      if_neg fun h => hmax.1 h.1 h.2, List.foldl_cons]
    exact ih hlt.2 hvalid.2 hmax.2 _

/-- Parse does not return on the items `String` writes when one of the ranges ends at
`math.MaxInt64`. -/
theorem parseRanges_rangeChars_eq_none {ranges : List (ℕ × ℕ)}
    (hlt : ∀ r ∈ ranges, r.2 < 2 ^ 63) (hvalid : ∀ r ∈ ranges, r.1 ≤ r.2)
    (hdiv : ∃ r ∈ ranges, r.1 < r.2 ∧ r.2 = 2 ^ 63 - 1) (b : Finset ℤ) :
    parseRanges (ranges.map rangeChars) b = none := by
  induction ranges generalizing b with
  | nil => simp at hdiv
  | cons r ranges ih =>
    simp only [List.forall_mem_cons] at hlt hvalid
    rw [List.map_cons, parseRanges_rangeChars_cons hlt.1 hvalid.1]
    split
    · rfl
    · rename_i hr
      obtain ⟨r', hr', hdiv'⟩ := hdiv
      rcases List.mem_cons.mp hr' with rfl | hr'
      · exact absurd hdiv' hr
      · exact ih hlt.2 hvalid.2 ⟨r', hr', hdiv'⟩ _

/-! ## The round trip -/

section RoundTrip

variable {s : Finset ℕ}

/-- The items of `String`'s output are the items of its ranges. -/
theorem splitOn_cpuSetString (hs : s.Nonempty) :
    (cpuSetString s).toList.splitOn ',' = (cpuRanges (s.sort (· ≤ ·))).map rangeChars := by
  obtain ⟨-, -, hcovers⟩ :=
    cpuRanges_canonical (List.sortedLT_iff_pairwise.mp (Finset.sortedLT_sort s))
  obtain ⟨x, hx⟩ := hs
  obtain ⟨r, hr, -⟩ := (hcovers x).mp (Finset.mem_sort _ |>.mpr hx)
  rw [toList_cpuSetString]
  refine List.splitOn_intercalate ',' (fun l hl => ?_) (by simpa using List.ne_nil_of_mem hr)
  obtain ⟨r, -, rfl⟩ := List.mem_map.mp hl
  unfold rangeChars
  split
  · exact Go.not_mem_toDigits (by decide) _
  · simp only [List.mem_append, List.mem_cons, not_or]
    exact ⟨Go.not_mem_toDigits (by decide) _, by decide, Go.not_mem_toDigits (by decide) _⟩

theorem cpuSetString_ne_empty (hs : s.Nonempty) : cpuSetString s ≠ "" := by
  intro h
  have hsplit := splitOn_cpuSetString hs
  rw [h] at hsplit
  obtain ⟨x, hx⟩ := hs
  obtain ⟨-, -, hcovers⟩ :=
    cpuRanges_canonical (List.sortedLT_iff_pairwise.mp (Finset.sortedLT_sort s))
  obtain ⟨r, hr, -⟩ := (hcovers x).mp (Finset.mem_sort _ |>.mpr hx)
  have hmem : rangeChars r ∈ [([] : List Char)] := by
    rw [String.toList_empty, List.splitOn_nil] at hsplit
    rw [hsplit]
    exact List.mem_map_of_mem hr
  exact rangeChars_ne_nil r (List.mem_singleton.mp hmem)

/-- **Parse reads back what String writes**, for every set of IDs of `int` that does not hold both
`math.MaxInt64` and the ID before it. -/
theorem parse_cpuSetString (hs : ∀ cpu ∈ s, cpu < 2 ^ 63)
    (hmax : ¬(2 ^ 63 - 2 ∈ s ∧ 2 ^ 63 - 1 ∈ s)) :
    parse (cpuSetString s) = some (.ok (s.map Nat.castEmbedding)) := by
  rcases s.eq_empty_or_nonempty with rfl | hne
  · simp [parse, cpuSetString, cpuRanges_eq]
  obtain ⟨hvalid, -, hcovers⟩ :=
    cpuRanges_canonical (List.sortedLT_iff_pairwise.mp (Finset.sortedLT_sort s))
  simp only [Finset.mem_sort] at hcovers
  have hend : ∀ r ∈ cpuRanges (s.sort (· ≤ ·)), r.2 ∈ s :=
    fun r hr => (hcovers r.2).mpr ⟨r, hr, hvalid r hr, le_rfl⟩
  have hmax' : ∀ r ∈ cpuRanges (s.sort (· ≤ ·)), r.1 < r.2 → r.2 ≠ 2 ^ 63 - 1 := by
    intro r hr hlt heq
    exact hmax ⟨(hcovers _).mpr ⟨r, hr, by omega, by omega⟩, heq ▸ hend r hr⟩
  rw [parse, if_neg (cpuSetString_ne_empty hne), splitOn_cpuSetString hne,
    parseRanges_rangeChars (fun r hr => hs _ (hend r hr)) hvalid hmax']
  congr 2
  ext x
  rw [Go.mem_foldl_union (fun r : ℕ × ℕ => Finset.Icc (r.1 : ℤ) r.2), Finset.mem_map]
  simp only [Finset.notMem_empty, false_or, Finset.mem_Icc, Nat.castEmbedding_apply]
  constructor
  · rintro ⟨r, hr, h1, h2⟩
    lift x to ℕ using (Int.natCast_nonneg r.1).trans h1
    exact ⟨x, (hcovers x).mpr ⟨r, hr, by exact_mod_cast h1, by exact_mod_cast h2⟩, rfl⟩
  · rintro ⟨n, hn, rfl⟩
    obtain ⟨r, hr, h1, h2⟩ := (hcovers n).mp hn
    exact ⟨r, hr, by exact_mod_cast h1, by exact_mod_cast h2⟩

/-- **Parse does not return on what String writes for a set holding `math.MaxInt64` and the ID
before it**: the last range ends at `math.MaxInt64`. -/
theorem parse_cpuSetString_eq_none (hs : ∀ cpu ∈ s, cpu < 2 ^ 63)
    (hmax : 2 ^ 63 - 2 ∈ s ∧ 2 ^ 63 - 1 ∈ s) : parse (cpuSetString s) = none := by
  have hne : s.Nonempty := ⟨_, hmax.1⟩
  obtain ⟨hvalid, hgaps, hcovers⟩ :=
    cpuRanges_canonical (List.sortedLT_iff_pairwise.mp (Finset.sortedLT_sort s))
  simp only [Finset.mem_sort] at hcovers
  have hend : ∀ r ∈ cpuRanges (s.sort (· ≤ ·)), r.2 ∈ s :=
    fun r hr => (hcovers r.2).mpr ⟨r, hr, hvalid r hr, le_rfl⟩
  -- `math.MaxInt64` and the ID before it lie in one range, which ends at `math.MaxInt64`
  obtain ⟨r, hr, hr1, hr2⟩ := (hcovers _).mp hmax.2
  obtain ⟨r', hr', hr1', hr2'⟩ := (hcovers _).mp hmax.1
  obtain rfl := eq_of_covers hgaps hr hr' ⟨hr1, hr2⟩ ⟨hr1', hr2'⟩ (by omega)
  have hlt := hs _ (hend r hr)
  rw [parse, if_neg (cpuSetString_ne_empty hne), splitOn_cpuSetString hne]
  exact parseRanges_rangeChars_eq_none (fun r hr => hs _ (hend r hr)) hvalid
    ⟨r, hr, by omega, by omega⟩ _

/-- **Parse reads malformed items as no CPU**: an item with three bounds, a range whose start is
past its end, and a range ending at `math.MaxInt64` that `String` writes. -/
theorem parse_drops_malformed_items :
    parse "1-2-3" = some (.ok ∅) ∧ parse "5-3" = some (.ok ∅) ∧
      parse (cpuSetString {2 ^ 63 - 2, 2 ^ 63 - 1}) = none :=
  ⟨by decide, by decide, parse_cpuSetString_eq_none (by simp) (by simp)⟩

end RoundTrip

end Kubernetes.CPUManager
