import Mathlib

/-!
# Go's fixed-width integers, `float64` and `net` addresses

The parts of Go's language and standard library that the models read, stated as Go defines them.

* `Go.toUnsigned w x` is the conversion `uint32(x)` / `uint64(x)` of an `int`, `Go.shl w v s` the
  shift `v << s` of a `w`-bit unsigned value (bits past the width are lost, a count of `w` or more
  gives `0`), `Go.intShl` the shift of a 64-bit `int`, and `Go.len64` is `bits.Len64`. The lemmas
  say when these agree with plain arithmetic on `ℕ`.
* `Go.quote` is `%q` of a string.
* Go's `int32` is `Int32`, whose `+` and `-` wrap; `Go.int32_toInt_add`, `Go.int32_toInt_sub` and
  `Go.int32_toInt_foldl_add` say when they compute in `ℤ` (`min` and `max` always do),
  `Go.int32_foldl_add` and `Go.int32_foldl_add_perm` how a loop of additions regroups, wrapping
  or not.
* A `float64` is a rational, and `Go.float64 x` the `float64` nearest `x`, ties to even: each
  arithmetic operation of Go rounds its exact result so. `Go.truncate` is the conversion of a
  `float64` to an integer type.
* A Go map is an `AList`. `Go.lookup_union`, `Go.lookup_foldl_erase` and
  `Go.lookup_eq_of_length_keys_eq` read a union, a loop of `delete`s and a `reflect.DeepEqual`
  key by key; `Go.addTo` is `m[k] += d` on a map of integers, with its reading `Go.lookup_addTo`
  and the loop that adds one map into another, `Go.getD_lookup_foldl_addTo`.
* `Go.rangeUpdate` is a `range` loop over a slice that threads a state and may rewrite each
  element; what each step keeps of an element, or moves between the state and the element, the
  whole loop keeps (`Go.forall_mem_rangeUpdate`, `Go.rangeUpdate_sum`).
* The parallel assignment `s[i], s[j] = s[j], s[i]` on a slice is `List.swap`; `Go.getElem?_swap`
  says where each element goes. Removing an element by moving the last one into its place keeps
  the others (`Go.dropLast_set_getLast_perm`); `Go.swapDelete` so removes the first element a
  test holds of, which `List.eraseP` takes out (`Go.swapDelete_perm`).
* `Net.IP` is an address of four or sixteen bytes, read as the number its bytes spell big-endian;
  `Net.IPMask` a mask built by `net.CIDRMask` (`none` is a `nil` mask). `IP.to4`, `IP.mask`,
  `IPMask.size` and `IPNet.contains` are `To4`, `Mask`, `Size` and `Contains`, with the length
  rules of the Go code (a sixteen-byte mask applies to a four-byte address by its last four bytes,
  an IPv4-in-IPv6 address to a four-byte mask by its IPv4 form).
-/

namespace Go

/-- `uint32(x)`, `uint64(x)`: an integer converted to an unsigned `w`-bit value. -/
def toUnsigned (w : ℕ) (x : ℤ) : ℕ := (x % 2 ^ w).toNat

/-- `fmt`'s `%q` of a string (`strconv.Quote`) on ASCII text: in double quotes, with a quote and
a backslash escaped, the usual control characters by name and the others as `\xHH`. -/
def quote (s : String) : String :=
  let hex (n : ℕ) : String := String.ofList (Nat.toDigits 16 (n / 16) ++ Nat.toDigits 16 (n % 16))
  "\"" ++ String.join (s.toList.map fun c =>
    if c = '"' then "\\\"" else if c = '\\' then "\\\\"
    else if c = '\n' then "\\n" else if c = '\t' then "\\t" else if c = '\r' then "\\r"
    else if c.toNat < 32 ∨ c.toNat = 127 then "\\x" ++ hex c.toNat
    else c.toString) ++ "\""

/-- A value converted to a signed 64-bit `int`. -/
def toInt64 (x : ℤ) : ℤ := (x + 2 ^ 63) % 2 ^ 64 - 2 ^ 63

/-- `v << s` on a `w`-bit unsigned value: the bits shifted past the width are lost, and a count
of `w` or more gives `0`. -/
def shl (w v s : ℕ) : ℕ := if s < w then v * 2 ^ s % 2 ^ w else 0

/-- `x << s` on a 64-bit `int`. -/
def intShl (x : ℤ) (s : ℕ) : ℤ := if s < 64 then toInt64 (x * 2 ^ s) else 0

/-- `bits.Len64(x)`, that is `64 - bits.LeadingZeros64(x)`: the number of bits of `x`. -/
def len64 (x : ℕ) : ℕ := if x = 0 then 0 else x.log2 + 1

theorem toUnsigned_lt (w : ℕ) (x : ℤ) : toUnsigned w x < 2 ^ w := by
  have hpos : (0 : ℤ) < 2 ^ w := by exact_mod_cast Nat.two_pow_pos w
  have h := Int.emod_lt_of_pos x hpos
  have h0 := Int.emod_nonneg x (Int.ne_of_gt hpos)
  rw [toUnsigned, Int.toNat_lt h0]
  exact_mod_cast h

/-- Converting a value that fits in the width changes nothing. -/
@[simp] theorem toUnsigned_natCast {w n : ℕ} (h : n < 2 ^ w) : toUnsigned w n = n := by
  have h' : (n : ℤ) < 2 ^ w := by exact_mod_cast h
  simp [toUnsigned, Int.emod_eq_of_lt (Int.natCast_nonneg n) h']

/-- A sum that fits in the width is not wrapped. -/
theorem toUnsigned_natCast_add {w a b : ℕ} (h : a + b < 2 ^ w) :
    toUnsigned w ((a : ℤ) + b) = a + b := by
  have hsum := toUnsigned_natCast h
  push_cast at hsum
  exact hsum

/-- A non-negative value never grows when converted. -/
theorem toUnsigned_natCast_le (w n : ℕ) : toUnsigned w n ≤ n := by
  have h : (n : ℤ) % 2 ^ w = ((n % 2 ^ w : ℕ) : ℤ) := by push_cast; rfl
  rw [toUnsigned, h, Int.toNat_natCast]
  exact Nat.mod_le _ _

/-- A shift that keeps every bit is a multiplication. -/
theorem shl_of_lt {w v s : ℕ} (hs : s < w) (h : v * 2 ^ s < 2 ^ w) : shl w v s = v * 2 ^ s := by
  simp [shl, hs, Nat.mod_eq_of_lt h]

@[simp] theorem shl_zero_left (w s : ℕ) : shl w 0 s = 0 := by
  simp [shl]

theorem intShl_one {s : ℕ} (h : s < 63) : intShl 1 s = 2 ^ s := by
  have hlt : (2 : ℤ) ^ s < 2 ^ 63 := by exact_mod_cast Nat.pow_lt_pow_right (by decide) h
  have hpos : (0 : ℤ) < 2 ^ s := by exact_mod_cast Nat.two_pow_pos s
  simp only [intShl, show s < 64 by omega, if_true, one_mul, toInt64]
  rw [Int.emod_eq_of_lt (by omega) (by omega)]
  omega

/-- A value that fits in an `int64` converts unchanged. -/
theorem toInt64_of_lt {x : ℤ} (h0 : -2 ^ 63 ≤ x) (h1 : x < 2 ^ 63) : toInt64 x = x := by
  unfold toInt64
  omega

/-- A value below `2 ^ 64` that converts to a non-negative `int64` converts unchanged. -/
theorem toInt64_of_nonneg {x : ℤ} (h0 : -2 ^ 63 ≤ x) (h1 : x < 2 ^ 64) (h : 0 ≤ toInt64 x) :
    toInt64 x = x := by
  unfold toInt64 at h ⊢
  omega

/-- An index no longer than `b` bits is shifted out entirely by `b`. -/
theorem shiftRight_eq_zero_of_len64_le {x b : ℕ} (h : len64 x ≤ b) : x >>> b = 0 := by
  apply Nat.shiftRight_eq_zero
  by_cases hx : x = 0
  · rw [hx]
    exact Nat.two_pow_pos b
  · simp only [len64, hx, if_false] at h
    exact lt_of_lt_of_le Nat.lt_log2_self (Nat.pow_le_pow_right (by decide) h)

/-- After `s[i], s[j] = s[j], s[i]`, position `k` holds what position `Equiv.swap i j k` held. -/
theorem getElem?_swap {α : Type*} {l : List α} {i j : ℕ} (hi : i < l.length) (hj : j < l.length)
    (k : ℕ) : (l.swap i j)[k]? = l[Equiv.swap i j k]? := by
  by_cases hk : k < l.length
  · rw [List.getElem?_eq_getElem (by rw [List.length_swap]; exact hk), List.getElem_swap]
    by_cases hki : k = i
    · subst hki
      simp [hj]
    · by_cases hkj : k = j
      · subst hkj
        simp [hki, hi]
      · simp [hki, hkj, Equiv.swap_apply_of_ne_of_ne hki hkj]
  · rw [List.getElem?_eq_none (by rw [List.length_swap]; omega),
      Equiv.swap_apply_of_ne_of_ne (by omega) (by omega), List.getElem?_eq_none (by omega)]

/-- Removing `s[i]` by moving the last element into its place (`s[i] = s[len(s)-1];
s = s[:len(s)-1]`) leaves the other elements, in another order. -/
theorem dropLast_set_getLast_perm {α : Type*} {s : List α} {i : ℕ} {last : α}
    (hlast : s.getLast? = some last) (hi : i < s.length) :
    (s.set i last).dropLast.Perm (s.eraseIdx i) := by
  induction s generalizing i with
  | nil => simp at hi
  | cons x t ih =>
    cases t with
    | nil =>
      obtain rfl : i = 0 := by simpa using hi
      simp
    | cons y t =>
      cases i with
      | zero =>
        have hlast' : (y :: t).getLast (List.cons_ne_nil y t) = last := by
          rw [List.getLast?_cons_cons, List.getLast?_eq_some_getLast (List.cons_ne_nil y t)] at hlast
          exact Option.some_injective _ hlast
        calc List.Perm (last :: (y :: t).dropLast) ((y :: t).dropLast ++ [last]) :=
              (List.perm_append_singleton _ _).symm
          _ = y :: t := by rw [← hlast', List.dropLast_append_getLast]
      | succ j =>
        have hne : (y :: t).set j last ≠ [] := by simp
        rw [List.set_cons_succ, List.dropLast_cons_of_ne_nil hne, List.eraseIdx_cons_succ]
        exact (ih (by simpa using hlast) (by simpa using hi)).cons x

/-- A loop of unions holds what one of its sets holds. -/
theorem mem_foldl_union {α ι : Type*} [DecidableEq α] (f : ι → Finset α) (ids : List ι)
    (acc : Finset α) (x : α) :
    x ∈ ids.foldl (fun b id => b ∪ f id) acc ↔ x ∈ acc ∨ ∃ id ∈ ids, x ∈ f id := by
  induction ids generalizing acc with
  | nil => simp
  | cons id ids ih =>
    rw [List.foldl_cons, ih]
    simp only [Finset.mem_union, List.mem_cons, exists_eq_or_imp]
    tauto

/-- The deletion of `removeFromSlice`: the first element `p` holds of is overwritten by the last
one, and the slice loses its last element. -/
def swapDelete {α : Type*} (p : α → Bool) (s : List α) : List α :=
  match s.findIdx? p, s.getLast? with
  | some i, some last => (s.set i last).dropLast
  | _, _ => s

/-- `swapDelete` takes out the first element `p` holds of, as `eraseP` does, in another order. -/
theorem swapDelete_perm {α : Type*} (p : α → Bool) (s : List α) :
    (swapDelete p s).Perm (s.eraseP p) := by
  unfold swapDelete
  rw [List.eraseP_eq_eraseIdx]
  split
  · rename_i i last hi hlast
    rw [hi]
    exact dropLast_set_getLast_perm hlast (List.findIdx?_eq_some_iff_getElem.mp hi).1
  · rename_i hnot
    cases hi : s.findIdx? p with
    | none => rfl
    | some i =>
      cases hl : s.getLast? with
      | none =>
        rw [List.getLast?_eq_none_iff] at hl
        subst hl
        simp at hi
      | some last => exact absurd hl (hnot i last hi)

/-! ### `int32` arithmetic

Go's `int32` is `Int32`; `+` and `-` wrap (`Int32.toInt_add` reduces modulo `2 ^ 32`). In range
they are the operations of `ℤ`. -/

theorem int32_toInt_add {a b : Int32} (h₁ : -2 ^ 31 ≤ a.toInt + b.toInt)
    (h₂ : a.toInt + b.toInt < 2 ^ 31) : (a + b).toInt = a.toInt + b.toInt := by
  rw [Int32.toInt_add]
  exact Int.bmod_eq_of_le (by omega) (by omega)

theorem int32_toInt_sub {a b : Int32} (h₁ : -2 ^ 31 ≤ a.toInt - b.toInt)
    (h₂ : a.toInt - b.toInt < 2 ^ 31) : (a - b).toInt = a.toInt - b.toInt := by
  rw [Int32.toInt_sub]
  exact Int.bmod_eq_of_le (by omega) (by omega)

/-- A loop adding non-negative `int32`s sums exactly while the sum stays below `2 ^ 31`. -/
theorem int32_toInt_foldl_add {α : Type*} (f : α → Int32) (l : List α) (acc : Int32)
    (hf : ∀ x ∈ l, 0 ≤ (f x).toInt) (hacc : 0 ≤ acc.toInt)
    (h : acc.toInt + (l.map fun x => (f x).toInt).sum < 2 ^ 31) :
    (l.foldl (fun t x => t + f x) acc).toInt = acc.toInt + (l.map fun x => (f x).toInt).sum := by
  induction l generalizing acc with
  | nil => simp
  | cons x l ih =>
    have hx := hf x List.mem_cons_self
    have hl : ∀ y ∈ l, 0 ≤ (f y).toInt := fun y hy => hf y (List.mem_cons_of_mem x hy)
    have hsum : 0 ≤ (l.map fun y => (f y).toInt).sum :=
      List.sum_nonneg (by simpa using hl)
    simp only [List.map_cons, List.sum_cons] at h ⊢
    have hacc' : (acc + f x).toInt = acc.toInt + (f x).toInt :=
      int32_toInt_add (by omega) (by omega)
    rw [List.foldl_cons, ih (acc + f x) hl (by omega) (by omega), hacc', Int.add_assoc]

/-- Go's `min` on `int32`s. -/
theorem int32_toInt_min (a b : Int32) : (min a b).toInt = min a.toInt b.toInt := by
  show (if a ≤ b then a else b).toInt = _
  split
  · rename_i h
    rw [Int32.le_iff_toInt_le] at h
    omega
  · rename_i h
    rw [Int32.le_iff_toInt_le] at h
    omega

/-- Go's `max` on `int32`s. -/
theorem int32_toInt_max (a b : Int32) : (max a b).toInt = max a.toInt b.toInt := by
  show (if a ≤ b then b else a).toInt = _
  split
  · rename_i h
    rw [Int32.le_iff_toInt_le] at h
    omega
  · rename_i h
    rw [Int32.le_iff_toInt_le] at h
    omega

/-- A loop adding `int32`s, wrapping or not, adds its start to what it adds from zero. -/
theorem int32_foldl_add {α : Type*} (f : α → Int32) (l : List α) (acc : Int32) :
    l.foldl (fun t x => t + f x) acc = acc + l.foldl (fun t x => t + f x) 0 := by
  induction l generalizing acc with
  | nil => simp
  | cons x l ih =>
    rw [List.foldl_cons, List.foldl_cons, ih, ih (0 + f x)]
    grind

/-- ... and in any order. -/
theorem int32_foldl_add_perm {α : Type*} (f : α → Int32) {l l' : List α} (h : l.Perm l')
    (acc : Int32) : l.foldl (fun t x => t + f x) acc = l'.foldl (fun t x => t + f x) acc :=
  h.foldl_eq' (fun _ _ _ _ _ => by grind) acc

/-! ### `float64` arithmetic

A `float64` is the rational it stands for. An operation rounds its exact result to the nearest
`float64`, ties to even; overflow and subnormals, far from the values the models compute, are left
out. -/

/-- The binade of `x ≠ 0`: the `e` with `2 ^ e ≤ |x| < 2 ^ (e + 1)`, read off the lengths of its
numerator and denominator. -/
def binade (x : ℚ) : ℤ :=
  let e : ℤ := (x.num.natAbs.log2 : ℤ) - x.den.log2
  if (2 : ℚ) ^ e ≤ |x| then e else e - 1

/-- `q` rounded to an integer, ties to the even one. -/
def roundHalfEven (q : ℚ) : ℤ :=
  if q - ⌊q⌋ < 1 / 2 then ⌊q⌋
  else if 1 / 2 < q - ⌊q⌋ then ⌊q⌋ + 1
  else if ⌊q⌋ % 2 = 0 then ⌊q⌋ else ⌊q⌋ + 1

/-- The `float64` nearest `x`, ties to even: in the binade `2 ^ e ≤ |x| < 2 ^ (e + 1)` a `float64`
holds 53 significant bits, so it is the nearest multiple of `2 ^ (e - 52)`. -/
def float64 (x : ℚ) : ℚ :=
  if x = 0 then 0 else roundHalfEven (x / 2 ^ (binade x - 52)) * 2 ^ (binade x - 52)

/-- `int32(f)`, `int64(f)` of a `float64` in range: its integer part, truncated toward zero. -/
def truncate (f : ℚ) : ℤ := f.num.tdiv f.den

/-! ### Maps

A Go map is an `AList`. Its operations are read key by key: a union looks the left side up
first, a loop of `delete`s removes the keys it tests true, and two maps of one length that agree
on the keys of the first (what `reflect.DeepEqual` checks) agree on every key. -/

section Map

variable {κ : Type*} [DecidableEq κ] {β : κ → Type*}

theorem lookup_union (s₁ s₂ : AList β) (k : κ) :
    (s₁ ∪ s₂).lookup k = (s₁.lookup k).or (s₂.lookup k) := by
  by_cases hk : k ∈ s₁
  · obtain ⟨v, hv⟩ := Option.isSome_iff_exists.mp (AList.lookup_isSome.mpr hk)
    rw [AList.lookup_union_left hk, hv, Option.some_or]
  · rw [AList.lookup_union_right hk, AList.lookup_eq_none.mpr hk, Option.none_or]

theorem lookup_foldl_erase (p : κ → Bool) (ks : List κ) (s : AList β) (k : κ) :
    (ks.foldl (fun s k => if p k then s.erase k else s) s).lookup k =
      if k ∈ ks ∧ p k then none else s.lookup k := by
  induction ks generalizing s with
  | nil => simp
  | cons k' ks ih =>
    rw [List.foldl_cons, ih]
    by_cases hk : k = k'
    · subst hk
      cases p k <;> simp
    · by_cases hp' : p k' <;> simp [hp', hk, AList.lookup_erase_ne hk]

/-- The keys of the first map are keys of the second and there are as many: both have the same
keys, so a key outside the first is outside the second. -/
theorem lookup_eq_of_length_keys_eq {s₁ s₂ : AList β} (hlen : s₁.keys.length = s₂.keys.length)
    (h : ∀ k ∈ s₁.keys, s₁.lookup k = s₂.lookup k) (k : κ) : s₁.lookup k = s₂.lookup k := by
  by_cases hk : k ∈ s₁.keys
  · exact h k hk
  have hsub : s₁.keys ⊆ s₂.keys := fun k' hk' => by
    have hsome : (s₂.lookup k').isSome := by
      rw [← h k' hk']
      exact AList.lookup_isSome.mpr (AList.mem_keys.mpr hk')
    exact AList.mem_keys.mp (AList.lookup_isSome.mp hsome)
  have hperm : s₁.keys.Perm s₂.keys :=
    (List.Nodup.subperm s₁.keys_nodup hsub).perm_of_length_le hlen.ge
  have hk₂ : k ∉ s₂.keys := fun hk₂ => hk (hperm.mem_iff.mpr hk₂)
  rw [AList.lookup_eq_none.mpr (mt AList.mem_keys.mp hk),
    AList.lookup_eq_none.mpr (mt AList.mem_keys.mp hk₂)]


/-- `m[k] += d` on a map of integers, where a missing key reads as `0`. -/
def addTo (m : AList fun _ : κ => ℤ) (k : κ) (d : ℤ) : AList fun _ : κ => ℤ :=
  m.insert k ((m.lookup k).getD 0 + d)

@[simp] theorem lookup_addTo (m : AList fun _ : κ => ℤ) (k k' : κ) (d : ℤ) :
    (addTo m k d).lookup k' = if k' = k then some ((m.lookup k).getD 0 + d) else m.lookup k' := by
  by_cases h : k' = k
  · subst h
    simp [addTo]
  · simp [addTo, AList.lookup_insert_ne h, h]

theorem getD_lookup_addTo (m : AList fun _ : κ => ℤ) (k k' : κ) (d : ℤ) :
    ((addTo m k d).lookup k').getD 0 = (m.lookup k').getD 0 + if k' = k then d else 0 := by
  by_cases h : k' = k
  · subst h
    simp
  · simp [h]

/-- A loop `for k, d := range s { m[k] += d }` over a map adds each key's value. -/
theorem getD_lookup_foldl_addTo (s m : AList fun _ : κ => ℤ) (k : κ) :
    ((s.entries.foldl (fun m d => addTo m d.1 d.2) m).lookup k).getD 0 =
      (m.lookup k).getD 0 + (s.lookup k).getD 0 := by
  obtain ⟨l, hl⟩ := s
  show ((l.foldl (fun m d => addTo m d.1 d.2) m).lookup k).getD 0 =
    (m.lookup k).getD 0 + (l.dlookup k).getD 0
  induction l generalizing m with
  | nil => simp
  | cons d l ih =>
    obtain ⟨k', v⟩ := d
    rw [List.foldl_cons, ih _ (List.nodupKeys_cons.mp hl).2, getD_lookup_addTo]
    by_cases hk : k = k'
    · subst hk
      have hnone : l.dlookup k = none := List.dlookup_eq_none.mpr (List.nodupKeys_cons.mp hl).1
      simp [hnone]
    · simp [hk, List.dlookup_cons_ne l ⟨k', v⟩ hk]

/-- Setting a key of a map changes a sum over its entries by that key's value only. -/
theorem sum_entries_insert {m : AList fun _ : κ => ℤ} {k : κ} {v : ℤ} (h : m.lookup k = some v)
    (g : ℤ → ℤ) (v' : ℤ) :
    ((m.insert k v').entries.map fun e => g e.2).sum = (m.entries.map fun e => g e.2).sum - g v + g v' := by
  have hk : k ∈ m.entries.keys := AList.mem_keys.mp (AList.lookup_isSome.mp (by simp [h]))
  obtain ⟨b, l₁, l₂, hk₁, heq, hker⟩ := List.exists_of_kerase hk
  have hb : b = v := by
    have hlookup : m.entries.dlookup k = some v := h
    rw [heq, List.dlookup_append, List.dlookup_eq_none.mpr hk₁, Option.none_or,
      List.dlookup_cons_eq] at hlookup
    exact Option.some.inj hlookup
  rw [AList.entries_insert, hker, heq, hb]
  simp only [List.map_cons, List.map_append, List.sum_cons, List.sum_append]
  omega

end Map

/-! ### Loops -/

section Loop

variable {σ α : Type*}

/-- `for i, x := range s { ... s[i] = x' }`: a loop over a slice that threads a state and may
rewrite each element. -/
def rangeUpdate (f : σ → α → σ × α) : σ → List α → σ × List α
  | s, [] => (s, [])
  | s, x :: xs =>
    let (s', x') := f s x
    let (s'', xs') := rangeUpdate f s' xs
    (s'', x' :: xs')

@[simp] theorem rangeUpdate_nil (f : σ → α → σ × α) (s : σ) : rangeUpdate f s [] = (s, []) := rfl

@[simp] theorem rangeUpdate_cons (f : σ → α → σ × α) (s : σ) (x : α) (xs : List α) :
    rangeUpdate f s (x :: xs) =
      ((rangeUpdate f (f s x).1 xs).1, (f s x).2 :: (rangeUpdate f (f s x).1 xs).2) := rfl

theorem length_rangeUpdate (f : σ → α → σ × α) (s : σ) (l : List α) :
    (rangeUpdate f s l).2.length = l.length := by
  induction l generalizing s with
  | nil => rfl
  | cons x xs ih => simp [ih]

/-- What every element has before the loop and each rewrite keeps, every element has after it. -/
theorem forall_mem_rangeUpdate {f : σ → α → σ × α} {p q : α → Prop}
    (hf : ∀ s x, p x → q (f s x).2) (s : σ) {l : List α} (hl : ∀ x ∈ l, p x) :
    ∀ y ∈ (rangeUpdate f s l).2, q y := by
  induction l generalizing s with
  | nil => simp
  | cons x xs ih =>
    simp only [rangeUpdate_cons, List.mem_cons, forall_eq_or_imp]
    exact ⟨hf s x (hl x List.mem_cons_self), ih _ fun y hy => hl y (List.mem_cons_of_mem x hy)⟩

/-- A quantity that each step moves between the state and the element it rewrites is kept by the
whole loop. -/
theorem rangeUpdate_sum {f : σ → α → σ × α} (w : σ → ℤ) (c : α → ℤ) {p : α → Prop}
    (hf : ∀ s x, p x → w (f s x).1 + c x = w s + c (f s x).2) (s : σ) {l : List α}
    (hl : ∀ x ∈ l, p x) :
    w (rangeUpdate f s l).1 + (l.map c).sum = w s + ((rangeUpdate f s l).2.map c).sum := by
  induction l generalizing s with
  | nil => simp
  | cons x xs ih =>
    have hx := hf s x (hl x List.mem_cons_self)
    have hxs := ih (f s x).1 fun y hy => hl y (List.mem_cons_of_mem x hy)
    simp only [rangeUpdate_cons, List.map_cons, List.sum_cons]
    omega

end Loop

end Go

namespace Net

/-- The length of an address: four bytes for IPv4, sixteen for IPv6. -/
inductive Family
  | v4
  | v6
  deriving DecidableEq, Repr

/-- The number of bits of an address of the family. -/
def Family.bits : Family → ℕ
  | .v4 => 32
  | .v6 => 128

@[simp] theorem Family.bits_v4 : Family.v4.bits = 32 := rfl
@[simp] theorem Family.bits_v6 : Family.v6.bits = 128 := rfl

theorem Family.bits_le (f : Family) : f.bits ≤ 128 := by
  cases f <;> decide

/-- A `net.IP` of four or sixteen bytes, as the number its bytes spell big-endian. -/
structure IP where
  family : Family
  addr : ℕ
  addr_lt : addr < 2 ^ family.bits
  deriving DecidableEq

/-- The address of a family whose bytes spell `n`, as `binary.BigEndian.PutUint32` writes a
`uint32` (the value is reduced to the width). -/
def IP.ofNat (family : Family) (n : ℕ) : IP :=
  ⟨family, n % 2 ^ family.bits, Nat.mod_lt _ (Nat.two_pow_pos _)⟩

@[simp] theorem IP.ofNat_family (family : Family) (n : ℕ) : (IP.ofNat family n).family = family :=
  rfl

@[simp] theorem IP.ofNat_addr (family : Family) (n : ℕ) :
    (IP.ofNat family n).addr = n % 2 ^ family.bits := rfl

/-- `ip.To4()`: a four-byte address itself, the last four bytes of an IPv4-in-IPv6 address
(`::ffff:a.b.c.d`), and `nil` for any other sixteen-byte address. -/
def IP.to4 (ip : IP) : Option IP :=
  match ip.family with
  | .v4 => some ip
  | .v6 => if ip.addr / 2 ^ 32 = 0xffff then some (IP.ofNat .v4 ip.addr) else none

/-- `binary.BigEndian.Uint32(ip)`: the first four bytes of the address. -/
def IP.uint32 (ip : IP) : ℕ := ip.addr / 2 ^ (ip.family.bits - 32)

/-- The address with its bits after the first `ones` cleared. -/
def IP.keepPrefix (ip : IP) (ones : ℕ) : IP :=
  IP.ofNat ip.family (ip.addr / 2 ^ (ip.family.bits - ones) * 2 ^ (ip.family.bits - ones))

/-- A mask built by `net.CIDRMask`: `ones` one bits, then zeros, over the family's length. -/
structure IPMask where
  ones : ℕ
  family : Family
  ones_le : ones ≤ family.bits
  deriving DecidableEq

/-- `net.CIDRMask(ones, bits)`: `nil` unless `bits` is 32 or 128 and `0 ≤ ones ≤ bits`. -/
def cidrMask (ones bits : ℤ) : Option IPMask :=
  if h : bits = 32 ∧ 0 ≤ ones ∧ ones ≤ 32 then some ⟨ones.toNat, .v4, by simp; omega⟩
  else if h : bits = 128 ∧ 0 ≤ ones ∧ ones ≤ 128 then some ⟨ones.toNat, .v6, by simp; omega⟩
  else none

/-- `mask.Size()`: the prefix length and the number of bits; `(0, 0)` for a `nil` mask. -/
def IPMask.size : Option IPMask → ℕ × ℕ
  | none => (0, 0)
  | some m => (m.ones, m.family.bits)

/-- The mask as the number its bytes spell. -/
def IPMask.value (m : IPMask) : ℕ := (2 ^ m.ones - 1) * 2 ^ (m.family.bits - m.ones)

/-- The last four bytes of a sixteen-byte mask, as a four-byte mask (`mask[12:]`). -/
def IPMask.last4 (m : IPMask) : IPMask :=
  ⟨m.ones - 96, .v4, by have := m.ones_le.trans m.family.bits_le; simp; omega⟩

/-- `ip.Mask(mask)`: the address with the bits outside the mask cleared, or `nil` when the two
lengths do not match. -/
def IP.mask (ip : IP) : Option IPMask → Option IP
  | none => none
  | some m =>
    -- a sixteen-byte mask of at least 96 ones is applied to a four-byte address by its last four
    -- bytes, and a four-byte mask to an IPv4-in-IPv6 address by its IPv4 form
    let m := if m.family = .v6 ∧ ip.family = .v4 ∧ 96 ≤ m.ones then m.last4 else m
    let ip := if m.family = .v4 ∧ ip.family = .v6 then ip.to4.getD ip else ip
    if ip.family = m.family then some (ip.keepPrefix m.ones) else none

/-- A `net.IPNet`: an address and a mask. -/
structure IPNet where
  ip : IP
  mask : Option IPMask
  deriving DecidableEq

/-- `networkNumberAndMask(n)`: the network's address in its shortest form and a mask of the same
length, or `nil` when the two do not fit together. -/
def IPNet.networkNumberAndMask (n : IPNet) : Option (IP × IPMask) :=
  let nn := n.ip.to4.getD n.ip
  match n.mask with
  | none => none
  | some m =>
    match m.family, nn.family with
    | .v4, .v4 => some (nn, m)
    | .v4, .v6 => none
    | .v6, .v4 => some (nn, m.last4)
    | .v6, .v6 => some (nn, m)

/-- `n.Contains(ip)`: the address, in its shortest form, has the network's length and agrees with
the network on the mask's ones. A `nil` address is contained only in a network with no network
number. -/
def IPNet.contains (n : IPNet) (ip : Option IP) : Bool :=
  match n.networkNumberAndMask, ip.map (fun a => a.to4.getD a) with
  | none, none => true
  | some (nn, m), some a =>
    a.family == nn.family &&
      a.addr / 2 ^ (nn.family.bits - m.ones) == nn.addr / 2 ^ (nn.family.bits - m.ones)
  | _, _ => false

/-- The network as `net.ParseCIDR` returns it: a mask of the address's length and an address
whose bits outside the mask are zero. -/
structure IPNet.Parsed (n : IPNet) : Prop where
  mask_family : ∃ m, n.mask = some m ∧ m.family = n.ip.family
  host_zero : ∀ m, n.mask = some m → n.ip.addr % 2 ^ (n.ip.family.bits - m.ones) = 0

/-- The network number and mask of a network as `net.ParseCIDR` returns it, other than an
IPv4-in-IPv6 one, are its address and mask. -/
theorem IPNet.Parsed.networkNumberAndMask {n : IPNet} (hp : n.Parsed)
    (hmapped : n.ip.family = .v6 → n.ip.to4 = none) {m : IPMask} (hm : n.mask = some m) :
    n.networkNumberAndMask = some (n.ip, m) := by
  obtain ⟨m', hm', hf⟩ := hp.mask_family
  rw [hm, Option.some.injEq] at hm'
  subst hm'
  have hnn : n.ip.to4.getD n.ip = n.ip := by
    cases hfam : n.ip.family with
    | v4 => simp [IP.to4, hfam]
    | v6 => simp [hmapped hfam]
  unfold IPNet.networkNumberAndMask
  rw [hnn, hm]
  dsimp only
  cases hfam : n.ip.family <;> simp [hf, hfam]

/-- An address is in such a network when its shortest form has the network's family and agrees
with the network's address on the mask. -/
theorem IPNet.Parsed.contains_iff {n : IPNet} (hp : n.Parsed)
    (hmapped : n.ip.family = .v6 → n.ip.to4 = none) {m : IPMask} (hm : n.mask = some m) (ip : IP) :
    n.contains (some ip) = true ↔ (ip.to4.getD ip).family = n.ip.family ∧
      (ip.to4.getD ip).addr / 2 ^ (n.ip.family.bits - m.ones) =
        n.ip.addr / 2 ^ (n.ip.family.bits - m.ones) := by
  unfold IPNet.contains
  rw [hp.networkNumberAndMask hmapped hm]
  simp

end Net
