import Mathlib.Data.List.Infix

/-!
# `Ghostd.Lib.Runs`: runs whose steps meet a condition

A run folds a step function over a list of actions. `Throughout` asks a condition of every action, in
the state before it. An invariant that a step keeps under the condition holds in every state of such a
run (`Throughout.invariant`).
-/

set_option autoImplicit false

namespace Ghostd.Lib

variable {σ α : Type} {step : σ → α → σ} {condition : σ → α → Prop}

/-- Every action of a run meets the condition, in the state before it. -/
def Throughout (step : σ → α → σ) (condition : σ → α → Prop) : σ → List α → Prop
  | _, [] => True
  | s, a :: rest => condition s a ∧ Throughout step condition (step s a) rest

/-- The part of a run up to some action meets the condition too. -/
theorem Throughout.of_isPrefix {s : σ} {actions before : List α} (h : Throughout step condition s actions)
    (hbefore : before <+: actions) : Throughout step condition s before := by
  induction before generalizing s actions with
  | nil => trivial
  | cons a before ih =>
    obtain ⟨rest, rfl⟩ := hbefore
    exact ⟨h.1, ih h.2 (List.prefix_append before rest)⟩

/-- What every step keeps under the condition holds in every state of the run. -/
theorem Throughout.invariant {I : σ → Prop} (hstep : ∀ s a, I s → condition s a → I (step s a)) {s : σ}
    {actions before : List α} (h : Throughout step condition s actions) (hs : I s)
    (hbefore : before <+: actions) : I (before.foldl step s) := by
  replace h := h.of_isPrefix hbefore
  clear hbefore
  induction before generalizing s with
  | nil => exact hs
  | cons a before ih => exact ih (hstep s a hs h.1) h.2

end Ghostd.Lib
