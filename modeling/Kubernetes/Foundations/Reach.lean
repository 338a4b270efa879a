import Mathlib

/-!
# Reachable states and runs of a labelled transition system

A system is a predicate `init` on states and a step relation `step a s s'` labelled by the
actions `a`. `Reachable init step s` holds of every state some run from an initial state reaches,
and `Run step s as s'` of the runs themselves, action by action.

An `Invariant` is true initially and kept by every step; it then holds on every reachable state
(`Invariant.holds`) and all along a run (`Run.invariant`). An invariant often needs a stronger
one to go through a step: `Invariant.mono` weakens a proved invariant to what the theorem states.

A loop `l.foldlM f s` in `Except` or `Option` is a run too, whose steps are the calls of its body
that succeed: a property every successful call keeps holds at the end of a loop that succeeds
(`foldlM_invariant`, `foldlM_option_invariant`).
-/

namespace Reach

variable {σ α : Type*} {init : σ → Prop} {step : α → σ → σ → Prop}

/-- The states a run of `step` reaches from a state satisfying `init`. -/
inductive Reachable (init : σ → Prop) (step : α → σ → σ → Prop) : σ → Prop
  | init {s : σ} : init s → Reachable init step s
  | step {s s' : σ} (a : α) : Reachable init step s → step a s s' → Reachable init step s'

/-- `Run step s as s'`: performing the actions `as` in order leads from `s` to `s'`. -/
inductive Run (step : α → σ → σ → Prop) : σ → List α → σ → Prop
  | nil (s : σ) : Run step s [] s
  | cons {s s₁ s₂ : σ} {a : α} {as : List α} : step a s s₁ → Run step s₁ as s₂ →
      Run step s (a :: as) s₂

/-- A property true of every initial state and kept by every step. -/
structure Invariant (init : σ → Prop) (step : α → σ → σ → Prop) (I : σ → Prop) : Prop where
  init : ∀ s, init s → I s
  step : ∀ a s s', I s → step a s s' → I s'

variable {I J : σ → Prop}

/-- **An invariant holds on every reachable state.** -/
theorem Invariant.holds (h : Invariant init step I) {s : σ} (hs : Reachable init step s) :
    I s := by
  induction hs with
  | init hi => exact h.init _ hi
  | step a _ hst ih => exact h.step a _ _ ih hst

theorem Invariant.mono (h : Invariant init step I) (hIJ : ∀ s, I s → J s) {s : σ}
    (hs : Reachable init step s) : J s :=
  hIJ s (h.holds hs)

/-- A run from a reachable state ends in a reachable state. -/
theorem Run.reachable {s s' : σ} {as : List α} (hr : Run step s as s')
    (hs : Reachable init step s) : Reachable init step s' := by
  induction hr with
  | nil => exact hs
  | cons hst _ ih => exact ih (.step _ hs hst)

theorem Run.append {s₁ s₂ s₃ : σ} {as bs : List α} (h₁ : Run step s₁ as s₂)
    (h₂ : Run step s₂ bs s₃) : Run step s₁ (as ++ bs) s₃ := by
  induction h₁ with
  | nil => exact h₂
  | cons hst _ ih => exact .cons hst (ih h₂)

/-- A run through `as ++ bs` passes through a state between the two parts. -/
theorem Run.of_append {s₁ s₃ : σ} {as bs : List α} (h : Run step s₁ (as ++ bs) s₃) :
    ∃ s₂, Run step s₁ as s₂ ∧ Run step s₂ bs s₃ := by
  induction as generalizing s₁ with
  | nil => exact ⟨s₁, .nil _, h⟩
  | cons a as ih =>
    cases h with
    | cons hst hr =>
      obtain ⟨s₂, h₁, h₂⟩ := ih hr
      exact ⟨s₂, .cons hst h₁, h₂⟩

/-- A property kept by every step of a run holds at its end. -/
theorem Run.preserves {s s' : σ} {as : List α} (hr : Run step s as s')
    (hI : ∀ a t t', a ∈ as → I t → step a t t' → I t') (hs : I s) : I s' := by
  induction hr with
  | nil => exact hs
  | cons hst _ ih =>
    exact ih (fun a t t' ha => hI a t t' (List.mem_cons_of_mem _ ha))
      (hI _ _ _ List.mem_cons_self hs hst)

/-! ## Loops of a fallible body -/

section Except

universe u

variable {ε : Type*} {β γ : Type u}

/-- A computation that succeeds after a bind succeeded at both steps. -/
theorem bind_eq_ok {x : Except ε β} {f : β → Except ε γ} {r : γ} :
    x >>= f = .ok r ↔ ∃ b, x = .ok b ∧ f b = .ok r := by
  cases x <;> simp [bind, Except.bind]

/-- **A loop keeps what each successful call of its body keeps.** -/
theorem foldlM_invariant (P : γ → Prop) {f : γ → β → Except ε γ} {l : List β}
    (hf : ∀ s b s', b ∈ l → P s → f s b = .ok s' → P s') {s r : γ} (hs : P s)
    (h : l.foldlM f s = .ok r) : P r := by
  induction l generalizing s with
  | nil =>
    cases h
    exact hs
  | cons b l ih =>
    obtain ⟨s', h₁, h₂⟩ := bind_eq_ok.mp h
    exact ih (fun t c t' hc => hf t c t' (List.mem_cons_of_mem _ hc))
      (hf s b s' List.mem_cons_self hs h₁) h₂

end Except

/-- **A loop in `Option` keeps what each successful call of its body keeps.** -/
theorem foldlM_option_invariant {β γ : Type*} (P : γ → Prop) {f : γ → β → Option γ} {l : List β}
    (hf : ∀ s b s', b ∈ l → P s → f s b = some s' → P s') {s r : γ} (hs : P s)
    (h : l.foldlM f s = some r) : P r := by
  induction l generalizing s with
  | nil =>
    cases h
    exact hs
  | cons b l ih =>
    obtain ⟨s', h₁, h₂⟩ := Option.bind_eq_some_iff.mp h
    exact ih (fun t c t' hc => hf t c t' (List.mem_cons_of_mem _ hc))
      (hf s b s' List.mem_cons_self hs h₁) h₂

end Reach
