import Mathlib.Order.Basic

/-!
# `Ghostd.Lib.Loop`: loops that end

A loop of a program runs its body until a condition fails. `loop` runs it for a number of rounds that is
given from outside, and returns nothing if it has not ended by then. So that a loop ends is a theorem:
enough rounds give a result (`loop_ends`), more rounds give the same (`loop_mono`), and what every round
keeps holds of the result (`loop_keeps`).
-/

set_option autoImplicit false

namespace Ghostd.Lib

variable {σ : Type} {next : σ → Option σ}

/-- A loop with the round `next`, which is `none` when the condition fails. -/
def loop (next : σ → Option σ) : Nat → σ → Option σ
  | 0, s => if (next s).isNone then some s else none
  | n + 1, s =>
    match next s with
    | none => some s
    | some s' => loop next n s'

theorem loop_of_done {s : σ} (h : next s = none) (n : Nat) : loop next n s = some s := by
  cases n with
  | zero => simp [loop, h]
  | succ => simp [loop, h]

/-- A loop has ended where its condition fails, and keeps what each round keeps. -/
theorem loop_keeps {I : σ → Prop} (hstep : ∀ s s', I s → next s = some s' → I s') {n : Nat} {s t : σ}
    (hs : I s) (h : loop next n s = some t) : I t ∧ next t = none := by
  induction n generalizing s with
  | zero =>
    simp only [loop] at h
    split at h
    · rename_i hdone
      cases h
      exact ⟨hs, Option.isNone_iff_eq_none.mp hdone⟩
    · cases h
  | succ n ih =>
    simp only [loop] at h
    split at h
    · rename_i hdone
      cases h
      exact ⟨hs, hdone⟩
    · rename_i s' hnext
      exact ih (hstep s s' hs hnext) h

/-- A loop ends if every round lowers a measure. -/
theorem loop_ends {I : σ → Prop} (hstep : ∀ s s', I s → next s = some s' → I s') {m : σ → Nat}
    (hless : ∀ s s', I s → next s = some s' → m s' < m s) {n : Nat} {s : σ} (hs : I s) (hn : m s ≤ n) :
    ∃ t, loop next n s = some t := by
  induction n generalizing s with
  | zero =>
    cases hnext : next s with
    | none => exact ⟨s, loop_of_done hnext 0⟩
    | some s' =>
      have := hless s s' hs hnext
      omega
  | succ n ih =>
    cases hnext : next s with
    | none => exact ⟨s, loop_of_done hnext _⟩
    | some s' =>
      have := hless s s' hs hnext
      obtain ⟨t, ht⟩ := ih (hstep s s' hs hnext) (by omega)
      exact ⟨t, by simp only [loop, hnext]; exact ht⟩

/-- More rounds do not change the result. -/
theorem loop_mono {n k : Nat} (hnk : n ≤ k) {s t : σ} (h : loop next n s = some t) : loop next k s = some t := by
  induction n generalizing k s with
  | zero =>
    simp only [loop] at h
    split at h
    · rename_i hdone
      cases h
      exact loop_of_done (Option.isNone_iff_eq_none.mp hdone) k
    · cases h
  | succ n ih =>
    obtain ⟨k, rfl⟩ : ∃ k', k = k' + 1 := ⟨k - 1, by omega⟩
    cases hnext : next s with
    | none =>
      rw [loop_of_done hnext] at h ⊢
      exact h
    | some =>
      simp only [loop, hnext] at h ⊢
      exact ih (by omega) h

end Ghostd.Lib
