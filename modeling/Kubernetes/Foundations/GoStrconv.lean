import Mathlib

/-!
# `strconv.Atoi`

`strconv.Atoi(s)` reads a Go `int` (64 bits) written in decimal after an optional sign. It fails
with a `*strconv.NumError` naming the function, the input and the reason: `ErrSyntax` for an
empty string, a sign alone or a character that is not a decimal digit, `ErrRange` for a value
outside the range of `int`. The model follows the general path, `ParseInt(s, 10, 0)` and its
digit loop in `ParseUint`; Atoi's fast path for inputs shorter than 19 bytes gives the same
results, since so few digits cannot leave the range.

`atoi_toDigits`: Atoi reads back the decimal digits of every number below `2 ^ 63`, as
`strconv.Itoa` and `fmt`'s `%d` write them. `strings.Split` on a one-character separator is
`List.splitOn`, which `List.intercalate` undoes (`List.splitOn_intercalate`).
-/

namespace Go

/-- Why a conversion fails: `strconv.ErrSyntax` or `strconv.ErrRange`. -/
inductive NumErr
  | errSyntax
  | errRange
  deriving DecidableEq

/-- `strconv.NumError`: the function that failed, its input and the reason. -/
structure NumError where
  func : String
  num : String
  err : NumErr
  deriving DecidableEq

/-- The digit loop of `ParseUint(s, 10, 64)` from the value `n` read so far: a character that is
not a decimal digit is a syntax error, a value past `2 ^ 64 - 1` a range error. -/
def parseUintDigits : ℕ → List Char → Except NumErr ℕ
  | n, [] => .ok n
  | n, c :: cs =>
    if !c.isDigit then .error .errSyntax
    -- `cutoff`, `maxUint64 / 10 + 1`: `n * 10` would overflow
    else if (2 ^ 64 - 1) / 10 + 1 ≤ n then .error .errRange
    else
      let n1 := 10 * n + (c.toNat - '0'.toNat)
      if 2 ^ 64 - 1 < n1 then .error .errRange else parseUintDigits n1 cs

/-- `ParseUint(s, 10, 64)`, up to the function its error names. -/
def parseUint (s : List Char) : Except NumErr ℕ :=
  if s = [] then .error .errSyntax else parseUintDigits 0 s

/-- The sign `ParseInt` reads first: whether the number is negative, and what follows. -/
def splitSign : List Char → Bool × List Char
  | '+' :: digits => (false, digits)
  | '-' :: digits => (true, digits)
  | digits => (false, digits)

/-- `strconv.Atoi(s)`: the sign, then the digits as `ParseUint` reads them, within the range of a
64-bit `int`; every error names `Atoi` and the whole input. -/
def atoi (s : List Char) : Except NumError ℤ :=
  let numError (err : NumErr) : NumError := ⟨"Atoi", String.ofList s, err⟩
  if s = [] then .error (numError .errSyntax)
  else
    let sign := splitSign s
    match parseUint sign.2 with
    | .error err => .error (numError err)
    | .ok un =>
      if !sign.1 && 2 ^ 63 ≤ un then .error (numError .errRange)
      else if sign.1 && 2 ^ 63 < un then .error (numError .errRange)
      else .ok (if sign.1 then -(un : ℤ) else un)

/-- A character that is not a decimal digit is not among the digits of a number. -/
theorem not_mem_toDigits {c : Char} (hc : c.isDigit = false) (n : ℕ) : c ∉ Nat.toDigits 10 n :=
  fun h => by
    rw [Nat.isDigit_of_mem_toDigits (by norm_num) (by norm_num) h] at hc
    cases hc

theorem le_ofDigitChars (cs : List Char) (n : ℕ) : n ≤ Nat.ofDigitChars 10 cs n := by
  rw [Nat.ofDigitChars_eq_ofDigitChars_zero]
  calc n ≤ 10 ^ cs.length * n := Nat.le_mul_of_pos_left n (by positivity)
    _ ≤ _ := Nat.le_add_right _ _

/-- The digit loop reads the number a string of digits spells, while it stays in range. -/
theorem parseUintDigits_of_isDigit {cs : List Char} (hdigits : ∀ c ∈ cs, c.isDigit = true) :
    ∀ n, Nat.ofDigitChars 10 cs n < 2 ^ 64 →
      parseUintDigits n cs = .ok (Nat.ofDigitChars 10 cs n) := by
  induction cs with
  | nil => exact fun _ _ => rfl
  | cons c cs ih =>
    intro n hlt
    have hc := hdigits c List.mem_cons_self
    rw [Nat.ofDigitChars_cons] at hlt ⊢
    have hmono := le_ofDigitChars cs (10 * n + (c.toNat - '0'.toNat))
    unfold parseUintDigits
    rw [if_neg (by simp [hc]), if_neg (by omega), if_neg (by omega)]
    exact ih (fun c h => hdigits c (List.mem_cons_of_mem _ h)) _ hlt

theorem splitSign_of_isDigit {c : Char} (hc : c.isDigit = true) (cs : List Char) :
    splitSign (c :: cs) = (false, c :: cs) := by
  unfold splitSign
  split
  · simp_all
  · simp_all
  · rfl

/-- **Atoi reads back what `Itoa` writes**, for every number within the range of `int`. -/
theorem atoi_toDigits {n : ℕ} (h : n < 2 ^ 63) : atoi (Nat.toDigits 10 n) = .ok n := by
  have hne : Nat.toDigits 10 n ≠ [] := Nat.toDigits_ne_nil
  have hdigits : ∀ c ∈ Nat.toDigits 10 n, c.isDigit = true :=
    fun _ hc => Nat.isDigit_of_mem_toDigits (by norm_num) (by norm_num) hc
  have hparse : parseUint (Nat.toDigits 10 n) = .ok n := by
    rw [parseUint, if_neg hne, parseUintDigits_of_isDigit hdigits 0 (by simp; omega),
      Nat.ofDigitChars_ten_toDigits]
  obtain ⟨c, cs, hcs⟩ := List.exists_cons_of_ne_nil hne
  have hsign : splitSign (Nat.toDigits 10 n) = (false, Nat.toDigits 10 n) := by
    rw [hcs]
    exact splitSign_of_isDigit (hdigits c (hcs ▸ List.mem_cons_self)) cs
  unfold atoi
  simp only [hsign, hparse, if_neg hne]
  rw [if_neg (by simp; omega)]
  rfl

end Go
