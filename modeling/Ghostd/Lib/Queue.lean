import Mathlib.Data.List.TakeWhile
import Mathlib.Logic.Function.Iterate

/-!
# `Ghostd.Lib.Queue`: working off a queue in batches

In a list that is ordered by the time of its elements, those that are due stand at the front
(`takeWhile_eq_filter`). If each round of a program takes the first `n` of them, then after `m` rounds
the first `n * m` are gone (`iterate_drop`), and after as many rounds as there are batches nothing is
left (`iterate_drained`).
-/

set_option autoImplicit false

namespace Ghostd.Lib

open List

/-- The elements with a property that is inherited by earlier elements stand at the front. -/
theorem takeWhile_eq_filter {α : Type} {r : α → α → Prop} {p : α → Bool} {l : List α} (hl : l.Pairwise r)
    (hp : ∀ a ∈ l, ∀ b ∈ l, r a b → p b = true → p a = true) : l.takeWhile p = l.filter p := by
  induction l with
  | nil => rfl
  | cons a l ih =>
    obtain ⟨ha, hl⟩ := pairwise_cons.mp hl
    have ih := ih hl fun b hb c hc => hp b (mem_cons_of_mem _ hb) c (mem_cons_of_mem _ hc)
    by_cases hpa : p a = true
    · rw [takeWhile_cons_of_pos hpa, filter_cons_of_pos hpa, ih]
    · -- Nothing after it has the property either.
      have hnone : l.filter p = [] := by
        refine filter_eq_nil_iff.mpr fun b hb hpb => hpa ?_
        exact hp a mem_cons_self b (mem_cons_of_mem _ hb) (ha b hb) hpb
      rw [takeWhile_cons_of_neg hpa, filter_cons_of_neg hpa, hnone]

section Rounds

variable {σ α : Type} (round : σ → σ) (queue : σ → List α) {I : σ → Prop} {n : Nat}

/-- What is left of the queue after a number of rounds. -/
theorem iterate_drop (hkeep : ∀ s, I s → I (round s)) (hround : ∀ s, I s → queue (round s) = (queue s).drop n)
    (m : Nat) {s : σ} (hs : I s) : I (round^[m] s) ∧ queue (round^[m] s) = (queue s).drop (n * m) := by
  induction m generalizing s with
  | zero => exact ⟨hs, rfl⟩
  | succ m ih =>
    obtain ⟨hI, hqueue⟩ := ih (hkeep s hs)
    rw [Function.iterate_succ_apply]
    refine ⟨hI, ?_⟩
    rw [hqueue, hround s hs, drop_drop, Nat.mul_succ, Nat.add_comm]

/-- One round for each batch empties the queue. -/
theorem iterate_drained (hkeep : ∀ s, I s → I (round s)) (hround : ∀ s, I s → queue (round s) = (queue s).drop n)
    (hn : 0 < n) {s : σ} (hs : I s) : queue (round^[((queue s).length + (n - 1)) / n] s) = [] := by
  rw [(iterate_drop round queue hkeep hround _ hs).2, drop_eq_nil_iff]
  have hrest := Nat.div_add_mod ((queue s).length + (n - 1)) n
  have hless := Nat.mod_lt ((queue s).length + (n - 1)) hn
  omega

end Rounds

end Ghostd.Lib
